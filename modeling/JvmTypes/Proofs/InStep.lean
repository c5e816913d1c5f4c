import JvmTypes.Trace
import Mathlib.Data.List.Forall2

/-!
# Runs in step

Two runs that can fail are in step when either both yield, and what they yield
is related, or both fail, and their errors are related. A theorem that compares
what one function does on two related inputs says that its two runs are in step,
and it is put together from the same fact about its parts: `InStep.bind` follows
one step with the next.
-/

namespace JvmTypes

variable {ε ε' α α' β β' : Type}

/-- A run that yields in the end has yielded on the way. -/
theorem exists_of_bind_eq_ok {x : Except ε α} {f : α → Except ε β} {b : β}
    (hBind : x >>= f = .ok b) : ∃ a, x = .ok a ∧ f a = .ok b := by
  cases x with
  | error e => cases hBind
  | ok a => exact ⟨a, rfl, hBind⟩

theorem bind_eq_ok_iff {x : Except ε α} {f : α → Except ε β} {b : β} :
    x >>= f = .ok b ↔ ∃ a, x = .ok a ∧ f a = .ok b := by
  constructor
  · exact exists_of_bind_eq_ok
  · rintro ⟨a, rfl, hNext⟩
    exact hNext

/-- A run that fails does so at once or later. -/
theorem cases_of_bind_eq_error {x : Except ε α} {f : α → Except ε β} {e : ε}
    (hBind : x >>= f = .error e) :
    x = .error e ∨ ∃ a, x = .ok a ∧ f a = .error e := by
  cases x with
  | error other => exact .inl (congrArg Except.error (Except.error.inj hBind))
  | ok a => exact .inr ⟨a, rfl, hBind⟩

/-- A `mapM` over a list yields when the run does so on each member. -/
theorem mapM_eq_ok_iff {f : α → Except ε β} {as : List α} {bs : List β} :
    as.mapM f = .ok bs ↔ List.Forall₂ (fun a b => f a = .ok b) as bs := by
  induction as generalizing bs with
  | nil =>
      rw [List.mapM_nil, List.forall₂_nil_left_iff]
      exact ⟨fun hOk => (Except.ok.inj hOk).symm, fun hNil => hNil ▸ rfl⟩
  | cons a as ih =>
      rw [List.mapM_cons, List.forall₂_cons_left_iff, bind_eq_ok_iff]
      constructor
      · rintro ⟨b, hFirst, hRest⟩
        obtain ⟨bs, hOks, hList⟩ := bind_eq_ok_iff.1 hRest
        exact ⟨b, bs, hFirst, ih.1 hOks, (Except.ok.inj hList).symm⟩
      · rintro ⟨b, bs, hFirst, hOks, rfl⟩
        exact ⟨b, hFirst, bind_eq_ok_iff.2 ⟨bs, ih.2 hOks, rfl⟩⟩

/-- A `mapM` over a list that fails does so at a member. -/
theorem exists_of_mapM_eq_error {f : α → Except ε β} {as : List α} {e : ε}
    (hError : as.mapM f = .error e) : ∃ a ∈ as, f a = .error e := by
  induction as with
  | nil => cases hError
  | cons a as ih =>
      rw [List.mapM_cons] at hError
      rcases cases_of_bind_eq_error hError with hFirst | ⟨b, -, hRest⟩
      · exact ⟨a, List.mem_cons_self, hFirst⟩
      · rcases cases_of_bind_eq_error hRest with hRest | ⟨bs, -, hOk⟩
        · obtain ⟨c, hMem, hFails⟩ := ih hRest
          exact ⟨c, List.mem_cons_of_mem a hMem, hFails⟩
        · cases hOk

theorem exists_mapM_iff {f : α → Except ε β} {as : List α} :
    (∃ bs, as.mapM f = .ok bs) ↔ ∀ a ∈ as, ∃ b, f a = .ok b := by
  simp only [mapM_eq_ok_iff]
  induction as with
  | nil => simp
  | cons a as ih =>
      rw [List.forall_mem_cons, ← ih]
      constructor
      · rintro ⟨bs, hPairs⟩
        cases hPairs with
        | cons hFirst hRest => exact ⟨⟨_, hFirst⟩, _, hRest⟩
      · rintro ⟨⟨b, hFirst⟩, bs, hRest⟩
        exact ⟨b :: bs, .cons hFirst hRest⟩

theorem exists_of_mem_mapM {f : α → Except ε β} {as : List α} {bs : List β}
    (hYield : as.mapM f = .ok bs) : ∀ b ∈ bs, ∃ a ∈ as, f a = .ok b := by
  have hPairs := mapM_eq_ok_iff.1 hYield
  clear hYield
  induction hPairs with
  | nil => simp
  | @cons a b as bs hFirst _ ih =>
      refine List.forall_mem_cons.2
        ⟨⟨a, List.mem_cons_self, hFirst⟩, fun c hMem => ?_⟩
      obtain ⟨a', hA', hOk⟩ := ih c hMem
      exact ⟨a', List.mem_cons_of_mem a hA', hOk⟩

/-- Two runs that both yield related values, or both fail with related
errors. -/
inductive InStep (failing : ε → ε' → Prop) (yielding : α → α' → Prop) :
    Except ε α → Except ε' α' → Prop
  | ok {a : α} {a' : α'} (hYield : yielding a a') :
      InStep failing yielding (.ok a) (.ok a')
  | error {e : ε} {e' : ε'} (hFail : failing e e') :
      InStep failing yielding (.error e) (.error e')

namespace InStep

variable {failing : ε → ε' → Prop} {yielding : α → α' → Prop}
    {next : β → β' → Prop}

theorem mono {failing' : ε → ε' → Prop} {yielding' : α → α' → Prop}
    {x : Except ε α} {x' : Except ε' α'}
    (hInStep : InStep failing yielding x x')
    (hFailing : ∀ e e', failing e e' → failing' e e')
    (hYielding : ∀ a a', yielding a a' → yielding' a a') :
    InStep failing' yielding' x x' := by
  cases hInStep with
  | ok hYield => exact .ok (hYielding _ _ hYield)
  | error hFail => exact .error (hFailing _ _ hFail)

/-- Runs `InStep` stay so when each goes on with a step of its own. -/
theorem bind {x : Except ε α} {x' : Except ε' α'} {f : α → Except ε β}
    {f' : α' → Except ε' β'} (hFirst : InStep failing yielding x x')
    (hNext : ∀ a a', yielding a a' → InStep failing next (f a) (f' a')) :
    InStep failing next (x >>= f) (x' >>= f') := by
  cases hFirst with
  | ok hYield => exact hNext _ _ hYield
  | error hFail => exact .error hFail

/-- The same holds of `Traced` runs, whatever events they leave behind. -/
theorem bind_traced {event event' : Type} {x : Traced event ε α}
    {x' : Traced event' ε' α'} {f : α → Traced event ε β}
    {f' : α' → Traced event' ε' β'}
    (hFirst : InStep failing yielding x.result x'.result)
    (hNext : ∀ a a', yielding a a' →
      InStep failing next (f a).result (f' a').result) :
    InStep failing next (x >>= f).result (x' >>= f').result := by
  obtain ⟨events, result⟩ := x
  obtain ⟨events', result'⟩ := x'
  cases hFirst with
  | ok hYield => exact hNext _ _ hYield
  | error hFail => exact .error hFail

/-- If each of two runs yields whenever the other does, and what is related
then, they are `InStep` as far as success goes. -/
theorem of_ok {backward : α' → α → Prop} {x : Except ε α} {x' : Except ε' α'}
    (hForward : ∀ a, x = .ok a → ∃ a', x' = .ok a' ∧ yielding a a')
    (hBackward : ∀ a', x' = .ok a' → ∃ a, x = .ok a ∧ backward a' a) :
    InStep (fun _ _ => True) yielding x x' := by
  cases x with
  | ok a =>
      obtain ⟨a', rfl, hYield⟩ := hForward a rfl
      exact .ok hYield
  | error e =>
      cases x' with
      | error e' => exact .error trivial
      | ok a' =>
          obtain ⟨a, hOk, -⟩ := hBackward a' rfl
          cases hOk

end InStep

end JvmTypes

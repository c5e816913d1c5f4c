import JvmTypes.Proofs.Nodes
import JvmTypes.Proofs.Places

/-!
# The leftmost offence

What can be wrong with a tree in a scope is wrong at one of its nodes: a class
is not found, or it is found and takes another number of arguments. Evaluation
looks a class up before it counts the arguments and counts them before it
evaluates them, so it meets the nodes as they stand in the text and reports the
first that offends.

Three facts make that precise, and each is proved apart from the others. The
objections of the nodes, from left to right, are what evaluation reports
(`Scope.reports_evaluate`); this holds of every tree, also of one that no text
makes. They are the offences of the tree if a text makes it
(`Scope.mem_objections_iff`). And their places grow from one to the next, since
every node starts where a token does (`Scope.inOrder_objections`).

## Main results

* `Scope.finds_iff`: what a name means, said in full.
* `Scope.parse_leftmost`: a text whose tree is known denotes a value exactly if
  nothing offends, and otherwise fails with the offence whose place is smallest.
-/

namespace JvmTypes

open Grammar

namespace Scope

variable {scope : Scope}

/-! ## What a name means -/

/-- A name means a class: that of the name itself or, if there is none and the
name has no dot, that of the name in the default package. -/
inductive Finds (scope : Scope) (name : String) : Declaration → Prop
  | literal {d : Declaration} (hFind : scope.catalog.find? name = some d) :
      Finds scope name d
  | qualified {d : Declaration} (hMissing : scope.catalog.find? name = none)
      (hDot : '.' ∉ name.toList) (hPackage : scope.defaultPackage ≠ "")
      (hFind : scope.catalog.find? (scope.defaultPackage ++ "." ++ name) =
        some d) :
      Finds scope name d

/-- The class that a name `Finds` is the one that `lookup?` yields. -/
theorem finds_iff {name : String} {d : Declaration} :
    scope.Finds name d ↔ scope.lookup? name = some d := by
  constructor
  · intro hFinds
    cases hFinds with
    | literal hFind => exact scope.lookup?_of_find? hFind
    | qualified hMissing hDot hPackage hFind =>
        rw [lookup?, hMissing, Option.none_or,
          if_neg (by simp [hDot, hPackage])]
        exact hFind
  · intro hLookup
    cases hMissing : scope.catalog.find? name with
    | some known =>
        rw [scope.lookup?_of_find? hMissing] at hLookup
        exact .literal (hMissing.trans hLookup)
    | none =>
        rw [lookup?, hMissing, Option.none_or] at hLookup
        split at hLookup
        · cases hLookup
        · next hRetry =>
            simp only [Bool.or_eq_true, List.contains_iff_mem,
              decide_eq_true_eq, not_or] at hRetry
            exact .qualified hMissing hRetry.1 hRetry.2 hLookup

theorem lookup?_eq_none_iff {name : String} :
    scope.lookup? name = none ↔ ∀ d, ¬ scope.Finds name d := by
  simp only [finds_iff, Option.eq_none_iff_forall_ne_some, ne_eq]

/-! ## What evaluation reports -/

/-- What a computation reports: the first of `errors`, or no error if there are
none. Whether values compose is left open. -/
def Reports {α : Type} (x : Traced Event Error α) (errors : List Error) :
    Prop :=
  match x.result with
  | .ok _ => errors = []
  | .error e => errors.head? = some e ∨ ∃ c, e = .composition c

private theorem reports_pure {α : Type} (a : α) :
    Reports (pure a : Traced Event Error α) [] := rfl

private theorem reports_fail {α : Type} (e : Error) :
    Reports (.fail e : Traced Event Error α) [e] :=
  .inl rfl

private theorem reports_composed (result : Except CompositionError Value) :
    Reports (composed result) [] := by
  cases result with
  | ok v => rfl
  | error c => exact .inr ⟨c, rfl⟩

/-- What comes behind `>>=` is reported only if nothing came before it. -/
theorem Reports.bind {α β : Type} {x : Traced Event Error α}
    {f : α → Traced Event Error β} {front back : List Error}
    (hFirst : Reports x front)
    (hNext : ∀ a, x.result = .ok a → Reports (f a) back) :
    Reports (x >>= f) (front ++ back) := by
  obtain ⟨events, result⟩ := x
  cases result with
  | ok a =>
      have hNone : front = [] := hFirst
      rw [hNone, List.nil_append]
      exact hNext a rfl
  | error e =>
      rcases hFirst with hHead | hComposition
      · exact .inl (by rw [List.head?_append, hHead, Option.some_or])
      · exact .inr hComposition

/-- The error about a name that `lookup?` finds no class for. -/
def missing? (scope : Scope) (name : String) (position : Option Int) :
    Option Error :=
  match scope.lookup? name with
  | some _ => none
  | none => some (.classNotFound name position)

/-- What `evaluate` objects to at a node, whatever it makes of the nodes
below. -/
def objection? (scope : Scope) : Expression → Option Error
  | .primitive name span =>
      if (Primitive.ofName? name).isSome then none
      else some (.classNotFound name (span.map Span.start))
  | .raw r => scope.missing? r.name (r.span.map Span.start)
  | .internal encoded span =>
      let descriptor := InternalName.element encoded.toList
      if InternalName.isPrimitiveCode descriptor then none
      else scope.missing? (String.ofList (InternalName.body descriptor))
        (span.map Span.start)
  | .parameterized r arguments span =>
      (scope.lookup? r.name).bind fun d =>
        if arguments.length = d.parameters.length then none
        else
          some (.arityMismatch d.name d.parameters.length arguments.length
            (span.map Span.start))
  | .array .. | .wildcard .. => none

/-- The objections to a tree, from left to right: `objection?` at each of its
nodes. -/
def objections (scope : Scope) (e : Expression) : List Error :=
  e.nodes.filterMap scope.objection?

/-- The `objections` to a tree are that to its root and those to what stands
below. -/
theorem objections_eq (e : Expression) :
    scope.objections e =
      (scope.objection? e).toList ++ e.children.flatMap scope.objections := by
  rw [objections, Expression.nodes_eq, List.filterMap_cons,
    List.filterMap_flatMap]
  cases scope.objection? e <;> rfl

/-- A class that is not found is not counted, so the name in front of type
arguments and the node that applies it are never both objected to. -/
theorem objections_parameterized (r : RawName) (arguments : List Expression)
    (span : Option Span) :
    scope.objections (.parameterized r arguments span) =
      (scope.objection? (.raw r)).toList ++
        ((scope.objection? (.parameterized r arguments span)).toList ++
          arguments.flatMap scope.objections) := by
  rw [objections_eq, Expression.children, List.flatMap_cons, objections_eq,
    Expression.children, List.flatMap_nil, List.append_nil]
  cases hLookup : scope.lookup? r.name with
  | none =>
      have hNone : scope.objection? (.parameterized r arguments span) =
          none := by
        rw [objection?, hLookup, Option.bind_none]
      rw [hNone, Option.toList_none, List.nil_append, List.nil_append]
  | some d =>
      have hNone : scope.objection? (.raw r) = none := by
        rw [objection?, missing?, hLookup]
      rw [hNone, Option.toList_none, List.nil_append, List.nil_append]

private theorem reports_resolveClass (name : String) (position : Option Int) :
    Reports (scope.resolveClass name position)
      (scope.missing? name position).toList := by
  rw [resolveClass, missing?, lookup?]
  cases scope.catalog.find? name with
  | some d => exact reports_pure d
  | none =>
      rw [Option.none_or]
      dsimp only
      split
      · exact reports_fail _
      · have hRetry : Reports
            (.emit (.retrying name (scope.defaultPackage ++ "." ++ name)) :
            Traced Event Error Unit) [] := rfl
        refine hRetry.bind fun _ _ => ?_
        cases scope.catalog.find? (scope.defaultPackage ++ "." ++ name) with
        | some d => exact reports_pure d
        | none => exact reports_fail _

private theorem reports_evaluateClassArray (depth : Nat)
    (descriptor : List Char) (position : Option Int) :
    Reports (scope.evaluateClassArray depth descriptor position)
      (scope.missing? (String.ofList (InternalName.body descriptor))
        position).toList := by
  have hClass : Reports _ (scope.missing? _ position).toList :=
    reports_resolveClass (String.ofList (InternalName.body descriptor)) position
  have hArray := hClass.bind fun d _ =>
    reports_composed (arrayTimes depth (.classType (.declared d)))
  rwa [List.append_nil] at hArray

private theorem reports_evaluateInternal (encoded : String)
    (span : Option Span) :
    Reports (scope.evaluateInternal encoded (span.map Span.start))
      (scope.objection? (.internal encoded span)).toList := by
  rw [evaluateInternal, objection?]
  split
  · next c hElement =>
      rw [hElement, InternalName.isPrimitiveCode]
      cases Primitive.ofCode? c with
      | some p => exact reports_composed _
      | none => exact reports_evaluateClassArray _ _ _
  · next hElement =>
      rw [if_neg]
      · exact reports_evaluateClassArray _ _ _
      · intro hCode
        obtain ⟨p, -, hSingle⟩ := (InternalName.isPrimitiveCode_iff _).1 hCode
        exact hElement _ hSingle

-- The recursion is that of evaluation; the objections to the children come in
-- its order.
mutual

/-- `evaluate` reports the first of the `objections` to a tree. -/
theorem reports_evaluate (e : Expression) :
    Reports (scope.evaluate e) (scope.objections e) := by
  cases e with
  | primitive name span =>
      rw [evaluate, objections_eq, objection?]
      cases Primitive.ofName? name with
      | some p => exact reports_pure _
      | none => exact reports_fail _
  | raw r =>
      rw [evaluate, objections_eq]
      exact (reports_resolveClass _ _).bind fun _ _ => reports_pure _
  | internal encoded span =>
      rw [evaluate, objections_eq, Expression.children, List.flatMap_nil,
        List.append_nil]
      exact reports_evaluateInternal encoded span
  | array component span =>
      have hArray := (reports_evaluate component).bind fun v _ =>
        reports_composed (Composition.arrayOf v)
      rw [evaluate, objections_eq, Expression.children, List.flatMap_singleton]
      rwa [List.append_nil] at hArray
  | parameterized r arguments span =>
      rw [evaluate, objections_parameterized]
      refine (reports_resolveClass _ _).bind fun d hClass => ?_
      have hLookup : scope.lookup? r.name = some d := by
        rw [← scope.value?_resolveClass r.name (r.span.map Span.start)]
        exact Traced.value?_eq_some_iff.2 hClass
      rw [objection?, hLookup, Option.bind_some]
      by_cases hCount : arguments.length = d.parameters.length
      · have hComposed := (reports_evaluateAll arguments).bind fun vs _ =>
          reports_composed (Composition.parameterizedOf
            (.classType (.declared d)) vs)
        rw [if_pos hCount, if_pos hCount, Option.toList_none, List.nil_append]
        rwa [List.append_nil] at hComposed
      · rw [if_neg hCount, if_neg hCount]
        exact .inl rfl
  | wildcard kind bounds span =>
      rw [evaluate, objections_eq, Expression.children,
        ← List.append_nil (bounds.flatMap scope.objections)]
      refine (reports_evaluateAll bounds).bind fun vs _ => ?_
      split
      · exact reports_composed _
      · exact .inr ⟨_, rfl⟩
      · exact reports_composed _

/-- `evaluateAll` reports the first of the `objections` to any of several
trees. -/
theorem reports_evaluateAll (es : List Expression) :
    Reports (scope.evaluateAll es) (es.flatMap scope.objections) := by
  cases es with
  | nil =>
      rw [evaluateAll]
      exact reports_pure []
  | cons e es =>
      rw [evaluateAll, List.flatMap_cons]
      refine (reports_evaluate e).bind fun v _ => ?_
      have hRest := (reports_evaluateAll es).bind fun vs _ =>
        reports_pure (v :: vs)
      rwa [List.append_nil] at hRest

end

/-! ## Offences -/

/-- What is wrong at a node, and where the node starts: it names a class that is
not found, alone or inside an internal array name, or it applies a class that is
found to another number of arguments than it has parameters. -/
inductive Offends (scope : Scope) : Expression → Int → Error → Prop
  | name {name : String} {s : Span} (hUnknown : ∀ d, ¬ scope.Finds name d) :
      Offends scope (.raw ⟨name, some s⟩) s.start
        (.classNotFound name (some s.start))
  | element {encoded name : String} {n : Nat} {s : Span}
      (hText : encoded.toList =
        List.replicate (n + 1) '[' ++ InternalName.classDescriptor name.toList)
      (hUnknown : ∀ d, ¬ scope.Finds name d) :
      Offends scope (.internal encoded (some s)) s.start
        (.classNotFound name (some s.start))
  | count {r : RawName} {arguments : List Expression} {s : Span}
      {d : Declaration} (hFinds : scope.Finds r.name d)
      (hCount : arguments.length ≠ d.parameters.length) :
      Offends scope (.parameterized r arguments (some s)) s.start
        (.arityMismatch d.name d.parameters.length arguments.length
          (some s.start))

/-- An offence of a tree is what `Offends` says is wrong at one of its nodes. -/
def Offence (scope : Scope) (e : Expression) (place : Int) (error : Error) :
    Prop :=
  ∃ n, e.IsNode n ∧ scope.Offends n place error

theorem Offends.position {n : Expression} {place : Int} {error : Error}
    (hOffends : scope.Offends n place error) :
    error.report.position = some place := by
  cases hOffends <;> rfl

theorem missing?_eq_some_iff {name : String} {position : Option Int}
    {error : Error} :
    scope.missing? name position = some error ↔
      (∀ d, ¬ scope.Finds name d) ∧ error = .classNotFound name position := by
  rw [missing?, ← lookup?_eq_none_iff]
  cases scope.lookup? name with
  | some d => simp
  | none => simp [eq_comm]

theorem objection?_raw_iff {name : String} {s : Span} {error : Error} :
    scope.objection? (.raw ⟨name, some s⟩) = some error ↔
      ∃ place, scope.Offends (.raw ⟨name, some s⟩) place error := by
  rw [objection?, missing?_eq_some_iff]
  constructor
  · rintro ⟨hUnknown, rfl⟩
    exact ⟨_, .name hUnknown⟩
  · intro hOffends
    obtain ⟨place, hOffends⟩ := hOffends
    cases hOffends with
    | name hUnknown => exact ⟨hUnknown, rfl⟩

theorem objection?_internal_iff {encoded : String} {s : Span} {error : Error}
    (hInternal : InternalName.IsInternalName encoded.toList) :
    scope.objection? (.internal encoded (some s)) = some error ↔
      ∃ place, scope.Offends (.internal encoded (some s)) place error := by
  obtain ⟨dimensions, descriptor, hPositive, hElement, hText⟩ := hInternal
  obtain ⟨n, rfl⟩ := Nat.exists_eq_succ_of_ne_zero (Nat.ne_of_gt hPositive)
  have hHead := InternalName.head?_ne_bracket_of_isElement hElement
  have hDescriptor : InternalName.element encoded.toList = descriptor := by
    rw [hText, InternalName.element_brackets _ hHead]
  rw [objection?, hDescriptor]
  constructor
  · intro hObjection
    split at hObjection
    · cases hObjection
    · next hCode =>
        obtain ⟨hUnknown, rfl⟩ := missing?_eq_some_iff.1 hObjection
        rcases hElement with hLetter | ⟨name, -, rfl⟩
        · exact absurd ((InternalName.isPrimitiveCode_iff _).2 hLetter) hCode
        · rw [InternalName.body_classDescriptor] at hUnknown ⊢
          have hName : encoded.toList = List.replicate (n + 1) '[' ++
              InternalName.classDescriptor (String.ofList name).toList := by
            rw [hText, String.toList_ofList]
          exact ⟨s.start, .element hName hUnknown⟩
  · intro hOffends
    obtain ⟨place, hOffends⟩ := hOffends
    cases hOffends with
    | @element _ name m _ hName hUnknown =>
        have hClass : descriptor =
            InternalName.classDescriptor name.toList := by
          rw [← hDescriptor, hName, InternalName.element_brackets]
          simp [InternalName.classDescriptor]
        have hCode : ¬ InternalName.isPrimitiveCode descriptor = true := by
          rw [hClass, InternalName.isPrimitiveCode_iff]
          rintro ⟨p, -, hSingle⟩
          simp [InternalName.classDescriptor] at hSingle
        rw [if_neg hCode, missing?_eq_some_iff, hClass,
          InternalName.body_classDescriptor, String.ofList_toList]
        exact ⟨hUnknown, rfl⟩

theorem objection?_parameterized_iff {r : RawName} {arguments : List Expression}
    {s : Span} {error : Error} :
    scope.objection? (.parameterized r arguments (some s)) = some error ↔
      ∃ place, scope.Offends
        (.parameterized r arguments (some s)) place error := by
  rw [objection?, Option.bind_eq_some_iff]
  constructor
  · rintro ⟨d, hLookup, hError⟩
    split at hError
    · cases hError
    · next hCount =>
        cases hError
        exact ⟨s.start, .count (finds_iff.2 hLookup) hCount⟩
  · intro hOffends
    obtain ⟨place, hOffends⟩ := hOffends
    cases hOffends with
    | count hFinds hCount => exact ⟨_, finds_iff.1 hFinds, if_neg hCount⟩

/-- At a node that `MakesType` derives from keyed tokens, `objection?` is an
error exactly if the node `Offends` with it. -/
theorem objection?_iff {ts : List Token} {n : Expression} {error : Error}
    (hType : MakesType ts n) (hKeyed : ∀ t ∈ ts, t.IsKeyed) :
    scope.objection? n = some error ↔ ∃ place, scope.Offends n place error := by
  obtain ⟨s, hSpan⟩ := hType.exists_span
  cases n with
  | primitive name span =>
      cases hType with
      | bare hBare =>
          cases hBare with
          | @primitive t p hKind =>
              have hName : t.value = p.name :=
                hKeyed t List.mem_cons_self p hKind
              rw [objection?, hName, Primitive.ofName?_name]
              constructor
              · intro hObjection
                cases hObjection
              · rintro ⟨_, ⟨⟩⟩
  | raw r =>
      obtain ⟨name, span⟩ := r
      obtain rfl : span = some s := hSpan
      exact objection?_raw_iff
  | internal encoded span =>
      obtain rfl : span = some s := hSpan
      cases hType with
      | bare hBare =>
          cases hBare with
          | internal hKind hInternal => exact objection?_internal_iff hInternal
  | parameterized r arguments span =>
      obtain rfl : span = some s := hSpan
      exact objection?_parameterized_iff
  | array component span =>
      rw [objection?]
      constructor
      · intro hObjection
        cases hObjection
      · rintro ⟨_, ⟨⟩⟩
  | wildcard kind bounds span =>
      rw [objection?]
      constructor
      · intro hObjection
        cases hObjection
      · rintro ⟨_, ⟨⟩⟩

/-- The `objections` to a tree that tokens make are the errors of its
offences. -/
theorem mem_objections_iff {ts : List Token} {e : Expression} {error : Error}
    (hType : MakesType ts e) (hKeyed : ∀ t ∈ ts, t.IsKeyed) :
    error ∈ scope.objections e ↔ ∃ place, scope.Offence e place error := by
  rw [objections, List.mem_filterMap]
  have hNode : ∀ n, e.IsNode n →
      (scope.objection? n = some error ↔
        ∃ place, scope.Offends n place error) := by
    intro n hNode
    obtain ⟨before, part, after, rfl, hPart⟩ := hType.exists_piece hNode
    exact objection?_iff hPart fun t hMem => hKeyed t (by simp [hMem])
  constructor
  · rintro ⟨n, hMem, hObjection⟩
    have hIsNode := Expression.mem_nodes_iff.1 hMem
    obtain ⟨place, hOffends⟩ := (hNode n hIsNode).1 hObjection
    exact ⟨place, n, hIsNode, hOffends⟩
  · rintro ⟨place, n, hIsNode, hOffends⟩
    exact ⟨n, Expression.mem_nodes_iff.2 hIsNode,
      (hNode n hIsNode).2 ⟨place, hOffends⟩⟩

/-! ## Places in order -/

/-- Errors that are reported with a position, the first in front of the
second. -/
def ReportedBefore (e e' : Error) : Prop :=
  ∃ p q, e.report.position = some p ∧ e'.report.position = some q ∧ p < q

/-- Errors that are each reported at the start of one of the tokens `ts`, one
behind the other. -/
def InOrder (ts : List Token) (errors : List Error) : Prop :=
  errors.Pairwise ReportedBefore ∧
    ∀ e ∈ errors, ∃ t ∈ ts, e.report.position = some t.start

theorem InOrder.mono {ts us : List Token} {errors : List Error}
    (hOrder : InOrder ts errors) (hTokens : ∀ t ∈ ts, t ∈ us) :
    InOrder us errors := by
  refine ⟨hOrder.1, fun e hMem => ?_⟩
  obtain ⟨t, hToken, hPlace⟩ := hOrder.2 e hMem
  exact ⟨t, hTokens t hToken, hPlace⟩

theorem InOrder.append {ts us : List Token} {front back : List Error}
    (hFront : InOrder ts front) (hBack : InOrder us back)
    (hBetween : ∀ t ∈ ts, ∀ u ∈ us, t.start < u.start) :
    InOrder (ts ++ us) (front ++ back) := by
  refine ⟨List.pairwise_append.2 ⟨hFront.1, hBack.1, fun e hE e' hE' => ?_⟩,
    fun e hMem => ?_⟩
  · obtain ⟨t, hT, hPlace⟩ := hFront.2 e hE
    obtain ⟨u, hU, hPlace'⟩ := hBack.2 e' hE'
    exact ⟨t.start, u.start, hPlace, hPlace', hBetween t hT u hU⟩
  · rcases List.mem_append.1 hMem with hE | hE
    · exact (hFront.mono fun t hT => List.mem_append_left us hT).2 e hE
    · exact (hBack.mono fun u hU => List.mem_append_right ts hU).2 e hE

theorem InOrder.one {ts : List Token} {e : Error} {t : Token} (hMem : t ∈ ts)
    (hPlace : e.report.position = some t.start) : InOrder ts [e] := by
  refine ⟨List.pairwise_singleton _ _, fun e' hE' => ?_⟩
  rw [List.mem_singleton.1 hE']
  exact ⟨t, hMem, hPlace⟩

/-- Tokens that are `Ordered` start in order. -/
theorem start_lt_of_ordered {front back : List Token}
    (hOrdered : Token.Ordered (front ++ back)) :
    ∀ t ∈ front, ∀ u ∈ back, t.start < u.start := by
  intro t hT u hU
  have hSize := hOrdered.2 t (List.mem_append_left back hT)
  have hBetween := hOrdered.of_append.2.2 t hT u hU
  omega

/-- Trees that are made from pieces of tokens are objected to `InOrder` if each
is. -/
theorem inOrder_of_pieces {ts : List Token} {es : List Expression}
    (hPieces : Pieces ts es) (hOrdered : Token.Ordered ts)
    (hEach : ∀ e ∈ es, ∀ us, MakesType us e → Token.Ordered us →
      InOrder us (scope.objections e)) :
    InOrder ts (es.flatMap scope.objections) := by
  induction hPieces with
  | nil => exact ⟨List.Pairwise.nil, by simp⟩
  | @cons before part after e es hType _ ih =>
      have hOrdered' := hOrdered.of_append.2.1
      have hFirst := hEach e List.mem_cons_self part hType hOrdered'.of_append.1
      have hRest := ih hOrdered'.of_append.2.1
        fun e' hMem => hEach e' (List.mem_cons_of_mem e hMem)
      have hBoth := hFirst.append hRest (start_lt_of_ordered hOrdered')
      rw [List.flatMap_cons]
      exact hBoth.mono fun t hMem => List.mem_append_right before hMem

private theorem position_of_missing? {name : String} {position : Option Int}
    {error : Error} (hMissing : scope.missing? name position = some error) :
    error.report.position = position := by
  obtain ⟨-, rfl⟩ := missing?_eq_some_iff.1 hMissing
  rfl

/-- An `objection?` to a node is reported where the node starts. -/
theorem position_of_objection? {n : Expression} {error : Error}
    (hObjection : scope.objection? n = some error) :
    error.report.position = n.position := by
  cases n with
  | primitive name span =>
      rw [objection?] at hObjection
      split at hObjection <;> cases hObjection
      rfl
  | raw r => exact position_of_missing? hObjection
  | internal encoded span =>
      rw [objection?] at hObjection
      split at hObjection
      · cases hObjection
      · exact position_of_missing? hObjection
  | parameterized r arguments span =>
      obtain ⟨d, -, hError⟩ := Option.bind_eq_some_iff.1 hObjection
      split at hError <;> cases hError
      rfl
  | array => cases hObjection
  | wildcard => cases hObjection

/-- A class with too many or too few type arguments is objected to where its
name starts, in front of the arguments. -/
theorem inOrder_parameterized {ts ms : List Token} {r : RawName}
    {es : List Expression} {opening closing : Token} {span : Option Span}
    {error : Error} (hName : MakesName ts r)
    (hSpan : span = Token.cover (ts ++ opening :: (ms ++ [closing])))
    (hObjection : scope.objection? (.parameterized r es span) = some error)
    (hOrdered : Token.Ordered (ts ++ opening :: (ms ++ [closing])))
    (hArguments : InOrder ms (es.flatMap scope.objections)) :
    InOrder (ts ++ opening :: (ms ++ [closing]))
      (scope.objections (.parameterized r es span)) := by
  have hFound : scope.objection? (.raw r) = none := by
    obtain ⟨d, hLookup, -⟩ := Option.bind_eq_some_iff.1 hObjection
    rw [objection?, missing?, hLookup]
  have hFirst : error.report.position = some (ts.head hName.ne_nil).start := by
    rw [position_of_objection? hObjection, Expression.position,
      Expression.span, hSpan, Token.cover_of_ne_nil (by simp), Option.map_some,
      List.head_append_of_ne_nil]
  have hNode : InOrder ts [error] := .one (List.head_mem hName.ne_nil) hFirst
  have hBetween : ∀ t ∈ ts, ∀ u ∈ ms, t.start < u.start := fun t hT u hU =>
    start_lt_of_ordered hOrdered t hT u (by simp [hU])
  have hBoth := hNode.append hArguments hBetween
  rw [objections_parameterized, hFound, hObjection]
  refine hBoth.mono fun t hMem => ?_
  rcases List.mem_append.1 hMem with hT | hT <;> simp [hT]

/-- The `objections` to a tree are reported in order, each where a token
starts. -/
theorem inOrder_objections (e : Expression) :
    ∀ ts, MakesType ts e → Token.Ordered ts →
      InOrder ts (scope.objections e) := by
  induction e using Expression.induction_children with
  | hStep e ih =>
      intro ts hType hOrdered
      cases hObjection : scope.objection? e with
      | none =>
          rw [objections_eq, hObjection]
          exact inOrder_of_pieces hType.pieces hOrdered ih
      | some error =>
          have hFirst : error.report.position =
              some (ts.head hType.ne_nil).start := by
            rw [position_of_objection? hObjection,
              Expression.position, hType.span,
              Token.cover_of_ne_nil hType.ne_nil, Option.map_some]
          have hNode : InOrder ts [error] :=
            .one (List.head_mem hType.ne_nil) hFirst
          cases e with
          | primitive | raw | internal =>
              rw [objections_eq, hObjection]
              exact hNode
          | array | wildcard => cases hObjection
          | parameterized r arguments span =>
              cases hType with
              | bare hBare =>
                  cases hBare with
                  | @parameterized _ ms _ _ opening closing hName _
                      hArguments _ =>
                      have hBehind : Token.Ordered ([opening] ++ (ms ++ _)) :=
                        hOrdered.of_append.2.1
                      have hInside : Token.Ordered ms :=
                        hBehind.of_append.2.1.of_append.1
                      exact inOrder_parameterized hName rfl hObjection hOrdered
                        (inOrder_of_pieces hArguments.pieces hInside
                          fun a hMem => ih a (List.mem_cons_of_mem _ hMem))

/-- The first of some errors that are `InOrder` is the one whose place is
smallest. -/
theorem head?_iff_of_inOrder {ts : List Token} {errors : List Error}
    (hOrder : InOrder ts errors) {error : Error} :
    errors.head? = some error ↔
      error ∈ errors ∧ ∃ p, error.report.position = some p ∧
        ∀ e ∈ errors, ∀ q, e.report.position = some q → p ≤ q := by
  cases errors with
  | nil => simp
  | cons first rest =>
      have hBefore : ∀ e ∈ rest, ReportedBefore first e :=
        (List.pairwise_cons.1 hOrder.1).1
      rw [List.head?_cons]
      constructor
      · intro hHead
        obtain rfl := Option.some.inj hHead
        obtain ⟨t, -, hPlace⟩ := hOrder.2 first List.mem_cons_self
        refine ⟨List.mem_cons_self, t.start, hPlace, fun e hMem q hQ => ?_⟩
        rcases List.mem_cons.1 hMem with rfl | hRest
        · rw [hPlace] at hQ
          exact Int.le_of_eq (Option.some.inj hQ)
        · obtain ⟨p, q', hP, hQ', hLess⟩ := hBefore e hRest
          rw [hPlace] at hP
          rw [hQ] at hQ'
          cases hP
          cases hQ'
          exact Int.le_of_lt hLess
      · rintro ⟨hMem, p, hPlace, hLeast⟩
        rcases List.mem_cons.1 hMem with rfl | hRest
        · rfl
        · obtain ⟨q, p', hQ, hP', hLess⟩ := hBefore error hRest
          have hLe := hLeast first List.mem_cons_self q hQ
          rw [hPlace] at hP'
          cases hP'
          omega

/-! ## Texts -/

/-- The tokens of a text make by `MakesType` the tree that `ofText` reads. They
stand in order, and the keyword of a primitive type is its own text. -/
theorem exists_tokens_of_tree {text : String} {e : Expression}
    (hText : Expression.ofText text = .ok e) :
    ∃ words, MakesType words e ∧ Token.Ordered words ∧
      ∀ t ∈ words, t.IsKeyed := by
  obtain ⟨words, stop, hScans, hWords, hType⟩ :=
    Expression.exists_scans_of_ofText hText
  have hKinds := Expression.kinds_of_lexes hScans.lexes
  exact ⟨words, hType, hScans.ordered_words hWords,
    fun t hMem => (hKinds t hMem).2⟩

/-- On a tree that a text makes `evaluate` fails with the first of its
`objections`, and it yields a value if there are none. -/
theorem result_evaluate {text : String} {e : Expression}
    (hText : Expression.ofText text = .ok e) :
    ((∃ v, (scope.evaluate e).result = .ok v) ↔ scope.objections e = []) ∧
      ∀ error, (scope.evaluate e).result = .error error ↔
        (scope.objections e).head? = some error := by
  have hReports : Reports (scope.evaluate e) (scope.objections e) :=
    reports_evaluate e
  have hComposes : Composes (scope.evaluate e) := composes_of_ofText hText
  rw [Reports] at hReports
  rw [Composes] at hComposes
  generalize (scope.evaluate e).result = result at hReports hComposes ⊢
  cases result with
  | ok v =>
      have hNone : scope.objections e = [] := hReports
      simp [hNone]
  | error reported =>
      have hHead : (scope.objections e).head? = some reported := by
        rcases hReports with hHead | ⟨c, rfl⟩
        · exact hHead
        · exact absurd rfl (hComposes c)
      have hSome : scope.objections e ≠ [] := by
        intro hNil
        rw [hNil] at hHead
        cases hHead
      simp [hHead, hSome]

/-- A text whose tree is known denotes a value exactly if the tree has no
`Offence`. Otherwise it fails with the offence that stands leftmost, and with no
other error: a class that is not found, by the name that the text has for it, or
the wrong number of type arguments of a class that is found, at the start of its
name. -/
theorem parse_leftmost (scope : Scope) (text : String) (e : Expression)
    (hText : Expression.ofText text = .ok e) :
    ((∃ v, (scope.parse text).result = .ok v) ↔
      ∀ place error, ¬ scope.Offence e place error) ∧
    ∀ error, (scope.parse text).result = .error error ↔
      ∃ place, scope.Offence e place error ∧
        ∀ place' error', scope.Offence e place' error' → place ≤ place' := by
  obtain ⟨words, hType, hOrdered, hKeyed⟩ := exists_tokens_of_tree hText
  have hMem : ∀ error, error ∈ scope.objections e ↔
      ∃ place, scope.Offence e place error :=
    fun error => mem_objections_iff hType hKeyed
  have hPosition : ∀ place error, scope.Offence e place error →
      error.report.position = some place := by
    rintro place error ⟨n, -, hOffends⟩
    exact hOffends.position
  rw [result_parse hText]
  obtain ⟨hValue, hError⟩ := scope.result_evaluate hText
  constructor
  · rw [hValue, List.eq_nil_iff_forall_not_mem]
    simp only [hMem, not_exists]
    exact ⟨fun hNone place error => hNone error place,
      fun hNone error place => hNone place error⟩
  · intro error
    rw [hError, head?_iff_of_inOrder
      (inOrder_objections e words hType hOrdered), hMem]
    constructor
    · rintro ⟨⟨place, hOffence⟩, p, hPlace, hLeast⟩
      rw [hPosition place error hOffence] at hPlace
      cases hPlace
      refine ⟨place, hOffence, fun place' error' hOther => ?_⟩
      exact hLeast error' ((hMem error').2 ⟨place', hOther⟩) place'
        (hPosition _ _ hOther)
    · rintro ⟨place, hOffence, hLeast⟩
      refine ⟨⟨place, hOffence⟩, place, hPosition _ _ hOffence,
        fun e' hE' q hQ => ?_⟩
      obtain ⟨place', hOther⟩ := (hMem e').1 hE'
      have hPlace : place' = q :=
        Option.some.inj ((hPosition place' e' hOther).symm.trans hQ)
      exact hPlace ▸ hLeast place' e' hOther

/-- The tree of ` List<Foo, Bar>`. -/
def unknownArguments : Expression :=
  .parameterized ⟨"List", some ⟨1, 5⟩⟩
    [.raw ⟨"Foo", some ⟨6, 9⟩⟩, .raw ⟨"Bar", some ⟨11, 14⟩⟩] (some ⟨1, 15⟩)

/-- Two arguments are too many for `List`, and that stands in front of `Foo` and
of `Bar`, which are not found either. -/
theorem parse_leftmost_list :
    Expression.ofText " List<Foo, Bar>" = .ok unknownArguments ∧
    listScope.Offence unknownArguments 6 (.classNotFound "Foo" (some 6)) ∧
    (listScope.parse " List<Foo, Bar>").result =
      .error (.arityMismatch "List" 1 2 (some 1)) ∧
    ∃ place, listScope.Offence unknownArguments place
      (.arityMismatch "List" 1 2 (some 1)) ∧
      ∀ place' error', listScope.Offence unknownArguments place' error' →
        place ≤ place' := by
  have hText : Expression.ofText " List<Foo, Bar>" =
      .ok unknownArguments := by cbv
  have hParse : (listScope.parse " List<Foo, Bar>").result =
      .error (.arityMismatch "List" 1 2 (some 1)) := by
    rw [result_parse hText]
    rfl
  have hNode : unknownArguments.IsNode (.raw ⟨"Foo", some ⟨6, 9⟩⟩) :=
    .child .root (by simp [unknownArguments, Expression.children])
  have hUnknown : ∀ d, ¬ listScope.Finds "Foo" d :=
    lookup?_eq_none_iff.1 (by decide +kernel)
  have hLeftmost :=
    (parse_leftmost listScope " List<Foo, Bar>" unknownArguments hText).2
  exact ⟨hText, ⟨_, hNode, .name hUnknown⟩, hParse, (hLeftmost _).1 hParse⟩

end Scope

end JvmTypes

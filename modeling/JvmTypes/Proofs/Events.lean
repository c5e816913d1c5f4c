import JvmTypes.Proofs.Extension
import JvmTypes.Proofs.Offences

/-!
# The events of a parse

While a text is parsed, each class name of its tree is looked up as it is
written, and a name that is looked up in the default package as well leaves an
event behind. Evaluation goes through the names as they stand in the text and
stops at the first that means no class or a class that takes another number of
type arguments. So the events are the retries of the names up to there, with the
name itself: it is looked up before its type arguments are counted, and these
before they are evaluated.

`Scope.Leaves` says so of any part of an evaluation, and it is put together from
the parts of the parts: `Scope.Leaves.bind` follows one with the next.

## Main results

* `Scope.leaves_evaluate`: the events of an evaluation, and where it stops.
* `Expression.pairwise_references`: the class names of a tree stand in order.
* `Scope.records_of_parse`: what a parse records, in full.
-/

namespace JvmTypes

open Grammar

/-! ## Class names in trees -/

/-- A reference to a class: the name as it is written, and where it stands. -/
structure Reference where
  name : String
  position : Option Int

/-- A `Reference` that stands in front of another. -/
def Reference.Before (r r' : Reference) : Prop :=
  ∃ p q, r.position = some p ∧ r'.position = some q ∧ p < q

/-- The `Reference` to the class of a name in a text. -/
def RawName.reference (r : RawName) : Reference :=
  ⟨r.name, r.span.map Span.start⟩

namespace Expression

/-- The reference that a node is: a class name, alone or in front of type
arguments, or an internal array name whose element is a class. -/
def reference? : Expression → Option Reference
  | raw r => some r.reference
  | internal encoded span =>
      let descriptor := InternalName.element encoded.toList
      if InternalName.isPrimitiveCode descriptor then none
      else
        some ⟨String.ofList (InternalName.body descriptor), span.map Span.start⟩
  | primitive .. | array .. | parameterized .. | wildcard .. => none

/-- The references in a tree, from left to right: those of its `nodes` that are
one. -/
def references (e : Expression) : List Reference := e.nodes.filterMap reference?

/-- The `references` in a tree are its root, if that is one, and those in what
stands below. -/
theorem references_eq (e : Expression) :
    e.references = e.reference?.toList ++ e.children.flatMap references := by
  rw [references, nodes_eq, List.filterMap_cons, List.filterMap_flatMap]
  cases e.reference? <;> rfl

private theorem references_raw (r : RawName) :
    (raw r).references = [r.reference] := by
  rw [references_eq]
  rfl

/-- The name in front of type arguments comes before the `references` in
these. -/
theorem references_parameterized (r : RawName) (arguments : List Expression)
    (span : Option Span) :
    (parameterized r arguments span).references =
      r.reference :: arguments.flatMap references := by
  rw [references_eq, children, List.flatMap_cons, references_raw]
  rfl

/-- A node as texts make it: a primitive type is one that exists, and a class
with type arguments starts where its name does. -/
def IsRegular : Expression → Prop
  | primitive name _ => ∃ p, Primitive.ofName? name = some p
  | parameterized r _ span => span.map Span.start = r.span.map Span.start
  | _ => True

private theorem isRegular_of_makesType {ts : List Token} {n : Expression}
    (hType : MakesType ts n) (hKeyed : ∀ t ∈ ts, t.IsKeyed) : n.IsRegular := by
  cases hType with
  | unbounded | upper | lower => trivial
  | bare hBare =>
      cases hBare with
      | @primitive t p hKind =>
          have hName : t.value = p.name := hKeyed t List.mem_cons_self p hKind
          rw [IsRegular, hName, Primitive.ofName?_name]
          exact ⟨p, rfl⟩
      | parameterized hName =>
          rw [IsRegular, hName.span, Token.cover_of_ne_nil hName.ne_nil,
            Token.cover_of_ne_nil (by simp), Option.map_some, Option.map_some,
            List.head_append_of_ne_nil]
      | name | internal | array => trivial

/-- All nodes of a tree that `MakesType` derives from keyed tokens are
`IsRegular`. -/
theorem isRegular_of_isNode {ts : List Token} {e n : Expression}
    (hType : MakesType ts e) (hKeyed : ∀ t ∈ ts, t.IsKeyed)
    (hNode : e.IsNode n) : n.IsRegular := by
  obtain ⟨before, part, after, rfl, hPart⟩ := hType.exists_piece hNode
  exact isRegular_of_makesType hPart fun t hMem => hKeyed t (by simp [hMem])

end Expression

namespace Scope

variable {scope : Scope}

/-! ## Retries -/

/-- A name is looked up in the `defaultPackage` as well: it has no dot, it is
the name of no class, and there is a default package. -/
def Retries (scope : Scope) (name : String) : Prop :=
  '.' ∉ name.toList ∧ scope.catalog.find? name = none ∧
  scope.defaultPackage ≠ ""

instance : DecidablePred scope.Retries :=
  fun name => inferInstanceAs (Decidable ('.' ∉ name.toList ∧ _ ∧ _))

/-- The `retrying` events of looking references up, when none of them ends
that. -/
def retries (scope : Scope) (references : List Reference) : List Event :=
  (references.filter fun r => scope.Retries r.name).map fun r =>
    .retrying r.name (scope.defaultPackage ++ "." ++ r.name)

private theorem retries_append (front back : List Reference) :
    scope.retries (front ++ back) = scope.retries front ++
      scope.retries back := by
  rw [retries, List.filter_append, List.map_append]
  rfl

private theorem retries_singleton {name : String}
    (hRetries : scope.Retries name) (position : Option Int) :
    scope.retries [⟨name, position⟩] =
      [.retrying name (scope.defaultPackage ++ "." ++ name)] := by
  rw [retries, List.filter_singleton, decide_eq_true hRetries]
  rfl

private theorem retries_singleton_of_not {name : String}
    (hRetries : ¬ scope.Retries name) (position : Option Int) :
    scope.retries [⟨name, position⟩] = [] := by
  rw [retries, List.filter_singleton, decide_eq_false hRetries]
  rfl

/-! ## What evaluation leaves behind -/

/-- Evaluation fails at a reference: its name `Finds` no class, or one that
takes another number of type arguments. -/
inductive FailsAt (scope : Scope) (r : Reference) : Error → Prop
  | unknown (hUnknown : ∀ d, ¬ scope.Finds r.name d) :
      FailsAt scope r (.classNotFound r.name r.position)
  | miscounted {d : Declaration} {actual : Nat} (hFinds : scope.Finds r.name d)
      (hCount : actual ≠ d.parameters.length) :
      FailsAt scope r (.arityMismatch d.name d.parameters.length
        actual r.position)

/-- What a computation that goes through references leaves behind: the `retries`
of all of them or, if it fails at one, those up to this one. Whether values
compose is left open. -/
def Leaves {α : Type} (scope : Scope) (x : Traced Event Error α)
    (references : List Reference) : Prop :=
  match x.result with
  | .ok _ => x.events = scope.retries references
  | .error e =>
      (∃ front r back, references = front ++ r :: back ∧ scope.FailsAt r e ∧
        x.events = scope.retries (front ++ [r])) ∨ ∃ c, e = .composition c

private theorem leaves_pure {α : Type} (a : α) : scope.Leaves (pure a) [] := rfl

private theorem leaves_composed (result : Except CompositionError Value) :
    scope.Leaves (composed result) [] := by
  cases result with
  | ok v => rfl
  | error c => exact .inr ⟨c, rfl⟩

/-- What comes behind `>>=` leaves nothing behind if there was a failure
before. -/
theorem Leaves.bind {α β : Type} {x : Traced Event Error α}
    {f : α → Traced Event Error β} {front back : List Reference}
    (hFirst : scope.Leaves x front)
    (hNext : ∀ a, x.result = .ok a → scope.Leaves (f a) back) :
    scope.Leaves (x >>= f) (front ++ back) := by
  obtain ⟨events, result⟩ := x
  cases result with
  | error e =>
      rcases hFirst with ⟨before, r, behind, rfl, hFails,
        hEvents⟩ | hComposition
      · exact .inl ⟨before, r, behind ++ back, by simp, hFails, hEvents⟩
      · exact .inr hComposition
  | ok a =>
      have hFront : events = scope.retries front := hFirst
      have hBack : scope.Leaves (f a) back := hNext a rfl
      rw [Leaves] at hBack
      rw [Leaves, Traced.ok_bind, hFront]
      generalize f a = next at hBack ⊢
      obtain ⟨later, result⟩ := next
      cases result with
      | ok b =>
          have hLater : later = scope.retries back := hBack
          rw [hLater, retries_append]
      | error e =>
          rcases hBack with ⟨before, r, behind, rfl, hFails,
            hEvents⟩ | hComposition
          · have hLater : later = scope.retries (before ++ [r]) := hEvents
            refine .inl ⟨front ++ before, r, behind, by simp, hFails, ?_⟩
            rw [hLater, List.append_assoc, retries_append front]
          · exact .inr hComposition

/-- The name that `resolveClass` looks up is retried, if at all, before it is
found or missed. -/
theorem leaves_resolveClass (name : String) (position : Option Int) :
    scope.Leaves (scope.resolveClass name position) [⟨name, position⟩] := by
  have hUnknown : scope.lookup? name = none → scope.FailsAt ⟨name, position⟩
      (.classNotFound name position) :=
    fun hLookup => .unknown (lookup?_eq_none_iff.1 hLookup)
  rw [resolveClass]
  rw [lookup?] at hUnknown
  cases hFind : scope.catalog.find? name with
  | some d =>
      have hNot : ¬ scope.Retries name := fun hRetries => by
        rw [hRetries.2.1] at hFind
        cases hFind
      exact (retries_singleton_of_not hNot position).symm
  | none =>
      rw [hFind, Option.none_or] at hUnknown
      dsimp only
      split
      · next hLiteral =>
          rw [if_pos hLiteral] at hUnknown
          have hNot : ¬ scope.Retries name := by
            rintro ⟨hDot, -, hPackage⟩
            simp [hDot, hPackage] at hLiteral
          exact .inl ⟨[], _, [], rfl, hUnknown rfl,
            (retries_singleton_of_not hNot position).symm⟩
      · next hRetry =>
          rw [if_neg hRetry] at hUnknown
          simp only [Bool.or_eq_true, List.contains_iff_mem, decide_eq_true_eq,
            not_or] at hRetry
          have hRetries : scope.Retries name := ⟨hRetry.1, hFind, hRetry.2⟩
          have hEvents := retries_singleton hRetries position
          cases hQualified : scope.catalog.find?
            (scope.defaultPackage ++ "." ++ name) with
          | some d => exact hEvents.symm
          | none =>
              exact .inl ⟨[], _, [], rfl, hUnknown hQualified, hEvents.symm⟩

private theorem leaves_evaluateClassArray (depth : Nat) (descriptor : List Char)
    (position : Option Int) :
    scope.Leaves (scope.evaluateClassArray depth descriptor position)
      [⟨String.ofList (InternalName.body descriptor), position⟩] := by
  have hClass : scope.Leaves _ [_] :=
    leaves_resolveClass (String.ofList (InternalName.body descriptor)) position
  exact hClass.bind fun d _ =>
    leaves_composed (arrayTimes depth (.classType (.declared d)))

private theorem leaves_evaluateInternal (encoded : String)
    (span : Option Span) :
    scope.Leaves (scope.evaluateInternal encoded (span.map Span.start))
      (Expression.internal encoded span).reference?.toList := by
  rw [evaluateInternal, Expression.reference?]
  split
  · next c hElement =>
      rw [hElement, InternalName.isPrimitiveCode]
      cases Primitive.ofCode? c with
      | some p => exact leaves_composed _
      | none => exact leaves_evaluateClassArray _ _ _
  · next hElement =>
      rw [if_neg]
      · exact leaves_evaluateClassArray _ _ _
      · intro hCode
        obtain ⟨p, -, hSingle⟩ := (InternalName.isPrimitiveCode_iff _).1 hCode
        exact hElement _ hSingle

/-- The class that `resolveClass` yields for a name is the one that the name
`Finds`. -/
theorem result_resolveClass_iff {name : String} {position : Option Int}
    {d : Declaration} :
    (scope.resolveClass name position).result = .ok d ↔ scope.Finds name d := by
  rw [finds_iff, ← Traced.value?_eq_some_iff, value?_resolveClass]

/-- Evaluation can fail at a reference after it was found: then nothing is left
behind but its `retries`, whatever stands behind. -/
theorem Leaves.fail {α β : Type} {x : Traced Event Error α}
    {f : α → Traced Event Error β} {r : Reference} {a : α} {e : Error}
    (hFirst : scope.Leaves x [r]) (hFound : x.result = .ok a)
    (hNext : f a = .fail e) (hFails : scope.FailsAt r e)
    (behind : List Reference) : scope.Leaves (x >>= f) (r :: behind) := by
  obtain ⟨events, result⟩ := x
  obtain rfl : result = .ok a := hFound
  have hEvents : events = scope.retries [r] := hFirst
  rw [Leaves, Traced.ok_bind, hNext]
  exact .inl ⟨[], r, behind, rfl, hFails,
    (List.append_nil events).trans hEvents⟩

-- The recursion is that of evaluation, and the references come in its order.
mutual

/-- Evaluation leaves behind the `retries` of the references up to the one at
which it fails. -/
theorem leaves_evaluate (e : Expression)
    (hRegular : ∀ n, e.IsNode n → n.IsRegular) :
    scope.Leaves (scope.evaluate e) e.references := by
  cases e with
  | primitive name span =>
      obtain ⟨p, hName⟩ := hRegular _ .root
      rw [evaluate, hName]
      exact leaves_pure _
  | raw r =>
      rw [evaluate, Expression.references_raw]
      have hName := scope.leaves_resolveClass r.name (r.span.map Span.start)
      exact hName.bind fun _ _ => leaves_pure _
  | internal encoded span =>
      rw [evaluate, Expression.references_eq, Expression.children,
        List.flatMap_nil, List.append_nil]
      exact leaves_evaluateInternal encoded span
  | array component span =>
      have hComponent := leaves_evaluate component fun n hNode =>
        hRegular n (hNode.of_child List.mem_cons_self)
      have hArray := hComponent.bind fun v _ =>
        leaves_composed (Composition.arrayOf v)
      rw [evaluate, Expression.references_eq, Expression.children,
        List.flatMap_singleton]
      rwa [List.append_nil] at hArray
  | parameterized r arguments span =>
      have hStart : span.map Span.start = r.reference.position :=
        hRegular _ .root
      have hName := scope.leaves_resolveClass r.name (r.span.map Span.start)
      rw [evaluate, Expression.references_parameterized]
      by_cases hCounted : ∀ d, scope.Finds r.name d →
        arguments.length = d.parameters.length
      · refine hName.bind fun d hFound => ?_
        have hArguments := leaves_evaluateAll arguments fun a hMem n hNode =>
          hRegular n (hNode.of_child (List.mem_cons_of_mem _ hMem))
        have hComposed := hArguments.bind fun vs _ =>
          leaves_composed (Composition.parameterizedOf
            (.classType (.declared d)) vs)
        rw [if_pos (hCounted d (result_resolveClass_iff.1 hFound))]
        rwa [List.append_nil] at hComposed
      · push Not at hCounted
        obtain ⟨d, hFinds, hCount⟩ := hCounted
        refine hName.fail (result_resolveClass_iff.2 hFinds)
          (if_neg hCount) ?_ _
        rw [hStart]
        exact .miscounted hFinds hCount
  | wildcard kind bounds span =>
      have hBounds := leaves_evaluateAll bounds fun b hMem n hNode =>
        hRegular n (hNode.of_child hMem)
      rw [evaluate, Expression.references_eq, Expression.children,
        Expression.reference?, Option.toList_none, List.nil_append,
        ← List.append_nil (bounds.flatMap _)]
      refine hBounds.bind fun vs _ => ?_
      split
      · exact leaves_composed _
      · exact .inr ⟨_, rfl⟩
      · exact leaves_composed _

private theorem leaves_evaluateAll (es : List Expression)
    (hRegular : ∀ e ∈ es, ∀ n, e.IsNode n → n.IsRegular) :
    scope.Leaves (scope.evaluateAll es) (es.flatMap Expression.references) := by
  cases es with
  | nil =>
      rw [evaluateAll]
      exact leaves_pure []
  | cons e es =>
      rw [evaluateAll, List.flatMap_cons]
      refine (leaves_evaluate e (hRegular e List.mem_cons_self)).bind
        fun v _ => ?_
      have hRest := leaves_evaluateAll es fun e' hMem =>
        hRegular e' (List.mem_cons_of_mem e hMem)
      have hAll := hRest.bind fun vs _ => leaves_pure (v :: vs)
      rwa [List.append_nil] at hAll

end

end Scope

/-! ## References in order -/

theorem Scope.lookup?_empty (name : String) :
    (Scope.mk .empty "").lookup? name = none := by
  simp [lookup?, Catalog.find?, Catalog.empty]

/-- A scope without classes objects to every one of the `references` and to
nothing else. -/
theorem Expression.objections_empty (e : Expression)
    (hRegular : ∀ n, e.IsNode n → n.IsRegular) :
    (Scope.mk .empty "").objections e =
      e.references.map fun r => .classNotFound r.name r.position := by
  rw [Scope.objections, references, List.map_filterMap]
  refine List.filterMap_congr fun n hMem => ?_
  have hNode := hRegular n (mem_nodes_iff.1 hMem)
  cases n with
  | primitive name span =>
      obtain ⟨p, hName⟩ := hNode
      rw [Scope.objection?, hName]
      rfl
  | raw r =>
      rw [Scope.objection?, Scope.missing?, Scope.lookup?_empty]
      rfl
  | internal encoded span =>
      rw [Scope.objection?, reference?, Scope.missing?, Scope.lookup?_empty]
      split <;> rfl
  | parameterized r arguments span =>
      rw [Scope.objection?, Scope.lookup?_empty]
      rfl
  | array | wildcard => rfl

/-- The `references` in a tree that `MakesType` derives from ordered tokens
stand in order. -/
theorem Expression.pairwise_references {ts : List Token} {e : Expression}
    (hType : MakesType ts e) (hOrdered : Token.Ordered ts)
    (hKeyed : ∀ t ∈ ts, t.IsKeyed) :
    e.references.Pairwise Reference.Before := by
  have hRegular : ∀ n, e.IsNode n → n.IsRegular := fun n hNode =>
    isRegular_of_isNode hType hKeyed hNode
  have hOrder := (Scope.mk .empty "").inOrder_objections e ts hType hOrdered
  rw [objections_empty e hRegular] at hOrder
  have hPairs := List.pairwise_map.1 hOrder.1
  exact hPairs

/-! ## Records -/

/-- An event as it is recorded: its `severity` and its wording. -/
def Event.record (e : Event) : Severity × String := (e.severity, e.text)

namespace Scope

/-- What parsing a text records: an `Event.record` for each of its events. -/
def records (scope : Scope) (text : String) : List (Severity × String) :=
  (scope.parse text).events.map Event.record

/-- The records of looking references up, when none of them ends that: one for
each whose name `Retries`, with the name in the default package. -/
def retryRecords (scope : Scope) (references : List Reference) :
    List (Severity × String) :=
  (references.filter fun r => scope.Retries r.name).map fun r =>
    (.debug, "retrying " ++ r.name ++ " as " ++ scope.defaultPackage ++
      "." ++ r.name)

private theorem map_record_retries (scope : Scope)
    (references : List Reference) :
    (scope.retries references).map Event.record =
      scope.retryRecords references := by
  rw [retries, retryRecords, List.map_map]
  refine List.map_congr_left fun r _ => ?_
  simp [Event.record, Event.severity, Event.text, String.append_assoc]

/-- What `Scope.parse` records for a text. If `Expression.ofText` refuses the
text, the error is that of the reader and `records` is empty. Otherwise the
`references` of its tree stand in the order of their places in the text. If the
text has a value, `records` are the `retryRecords` of all of them and then one
record with the text, quoted, and the value. If the parse fails, the references
split at one that it `FailsAt`, and `records` are the `retryRecords` up to that
one, with it and without what stands behind. -/
theorem records_of_parse (scope : Scope) (text : String) :
    (∀ error, Expression.ofText text = .error error →
      (scope.parse text).result = .error (.grammar error) ∧
      scope.records text = []) ∧
    ∀ e, Expression.ofText text = .ok e →
      e.references.Pairwise Reference.Before ∧
      (∀ v, (scope.parse text).result = .ok v →
        scope.records text = scope.retryRecords e.references ++
          [(.debug, "parsed " ++ Text.quoted text ++ " as " ++ v.text)]) ∧
      ∀ error, (scope.parse text).result = .error error →
        ∃ front r back, e.references = front ++ r :: back ∧
          scope.FailsAt r error ∧
          scope.records text = scope.retryRecords (front ++ [r]) := by
  constructor
  · intro error hText
    rw [records, parse, hText]
    exact ⟨rfl, rfl⟩
  · intro e hText
    obtain ⟨words, hType, hOrdered, hKeyed⟩ := exists_tokens_of_tree hText
    have hLeaves : scope.Leaves (scope.evaluate e) e.references :=
      leaves_evaluate e fun n hNode =>
        Expression.isRegular_of_isNode hType hKeyed hNode
    have hComposes : Composes (scope.evaluate e) := composes_of_ofText hText
    have hParse : scope.parse text =
        scope.evaluate e >>= fun v => ⟨[.parsed text v], .ok v⟩ := by
      rw [parse, hText]
      rfl
    refine ⟨Expression.pairwise_references hType hOrdered hKeyed, ?_⟩
    rw [records, hParse]
    rw [Composes] at hComposes
    rw [Leaves] at hLeaves
    generalize scope.evaluate e = evaluation at hLeaves hComposes ⊢
    obtain ⟨events, result⟩ := evaluation
    constructor
    · rintro v hValue
      cases result with
      | error _ => cases hValue
      | ok w =>
          have hEvents : events = scope.retries e.references := hLeaves
          cases hValue
          rw [Traced.ok_bind, List.map_append, hEvents, map_record_retries]
          rfl
    · rintro error hError
      cases result with
      | ok _ => cases hError
      | error reported =>
          cases hError
          rcases hLeaves with ⟨front, r, back, hSplit, hFails,
            hEvents⟩ | ⟨c, rfl⟩
          · refine ⟨front, r, back, hSplit, hFails, ?_⟩
            rw [Traced.error_bind, ← map_record_retries]
            exact congrArg _ hEvents
          · exact absurd rfl (hComposes c)

/-- The tree of `List<Item>`. -/
def listOfItem : Expression :=
  .parameterized ⟨"List", some ⟨0, 4⟩⟩ [.raw ⟨"Item", some ⟨5, 9⟩⟩]
    (some ⟨0, 10⟩)

/-- The tree of `Item<Foo>`. -/
def itemOfFoo : Expression :=
  .parameterized ⟨"Item", some ⟨0, 4⟩⟩ [.raw ⟨"Foo", some ⟨5, 8⟩⟩] (some ⟨0, 9⟩)

private theorem ofText_listOfItem :
    Expression.ofText "List<Item>" = .ok listOfItem := by cbv

private theorem ofText_itemOfFoo :
    Expression.ofText "Item<Foo>" = .ok itemOfFoo := by cbv

/-- With `app` as the default package, `Item` is retried in it and `List` is
not. `Item` takes no type arguments, so `Item<Foo>` fails before `Foo` is looked
up at all. -/
theorem records_of_parse_items :
    Expression.ofText "List<Item>" = .ok listOfItem ∧
    ((Scope.mk itemCatalog "app").parse "List<Item>").result = .ok listOfItems ∧
    (Scope.mk itemCatalog "app").records "List<Item>" =
      [(.debug, "retrying Item as app.Item"),
        (.debug, "parsed 'List<Item>' as List<app.Item>")] ∧
    Expression.ofText "Item<Foo>" = .ok itemOfFoo ∧
    ((Scope.mk itemCatalog "app").parse "Item<Foo>").result =
      .error (.arityMismatch "app.Item" 0 1 (some 0)) ∧
    ∃ front r back, itemOfFoo.references = front ++ r :: back ∧
      (Scope.mk itemCatalog "app").FailsAt r
        (.arityMismatch "app.Item" 0 1 (some 0)) ∧
      (Scope.mk itemCatalog "app").records "Item<Foo>" =
        (Scope.mk itemCatalog "app").retryRecords (front ++ [r]) := by
  have hValue : ((Scope.mk itemCatalog "app").parse "List<Item>").result =
      .ok listOfItems := by
    rw [result_parse ofText_listOfItem]
    rfl
  have hError : ((Scope.mk itemCatalog "app").parse "Item<Foo>").result =
      .error (.arityMismatch "app.Item" 0 1 (some 0)) := by
    rw [result_parse ofText_itemOfFoo]
    rfl
  have hWordings : (Scope.mk itemCatalog "app").retryRecords
      listOfItem.references ++
      [(.debug, "parsed " ++ Text.quoted "List<Item>" ++ " as " ++
        listOfItems.text)] =
        [(.debug, "retrying Item as app.Item"),
          (.debug, "parsed 'List<Item>' as List<app.Item>")] := by
    decide +kernel
  obtain ⟨-, hSuccess, -⟩ :=
    (records_of_parse ⟨itemCatalog, "app"⟩ "List<Item>").2 _ ofText_listOfItem
  obtain ⟨-, -, hFailure⟩ :=
    (records_of_parse ⟨itemCatalog, "app"⟩ "Item<Foo>").2 _ ofText_itemOfFoo
  have hRecords := hSuccess _ hValue
  rw [hWordings] at hRecords
  exact ⟨ofText_listOfItem, hValue, hRecords, ofText_itemOfFoo, hError,
    hFailure _ hError⟩

end Scope

end JvmTypes

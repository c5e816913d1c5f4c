import JvmTypes.InternalName

/-!
# The language of class names

`isClassName` and `InternalName.isValid` decide by scanning. This module says
the same languages by their shape: a class name is one or more segments with
dots between them, and an internal array name is a run of brackets before the
letter of a primitive type or a class descriptor.

## Main results

* `isClassName_iff`: the scan for a class name accepts exactly the dotted
  sequences of segments.
* `InternalName.isValid_iff`: the shape of an internal array name.
* `InternalName.depth_brackets`, `InternalName.element_brackets`: a run of
  brackets before an element is taken apart into just these two.
-/

namespace JvmTypes

/-- A segment of a class name: a start by `isSegmentStart` and then name
parts. -/
def IsSegment (segment : List Char) : Prop :=
  ∃ c cs, segment = c :: cs ∧ isSegmentStart c = true ∧
    ∀ d ∈ cs, isNamePart d = true

/-- One or more pieces with dots between them. -/
def IsDotted (piece : List Char → Prop) (text : List Char) : Prop :=
  ∃ pieces : List (List Char),
    pieces ≠ [] ∧ (∀ p ∈ pieces, piece p) ∧ text = ['.'].intercalate pieces

/-- A class name, told without the scan `isClassName`: segments with dots
between them. -/
def IsClassName (text : List Char) : Prop := IsDotted IsSegment text

theorem isNamePart_of_isSegmentStart {c : Char}
    (hStart : isSegmentStart c = true) : isNamePart c = true := by
  simp only [isSegmentStart, Bool.or_eq_true, Bool.and_eq_true,
    decide_eq_true_eq] at hStart
  simp only [isNamePart, Bool.or_eq_true, decide_eq_true_eq]
  rcases hStart with ⟨hWord, _⟩ | hDollar
  · exact .inl hWord
  · exact .inr hDollar

/-- No dot stands inside a name part, so a dotted text falls apart in one
way. -/
theorem ne_dot_of_isNamePart {c : Char} (hPart : isNamePart c = true) :
    c ≠ '.' := by
  rintro rfl
  exact absurd hPart (by decide)

/-- What `completesClassName` accepts is a first piece, which is a whole segment
if one had to start, and further segments behind dots. -/
theorem exists_segments_of_completesClassName {fresh : Bool} {text : List Char}
    (hScan : completesClassName fresh text = true) :
    ∃ head segments, (fresh = true → IsSegment head) ∧
      (∀ c ∈ head, isNamePart c = true) ∧
      (∀ s ∈ segments, IsSegment s) ∧
      text = ['.'].intercalate (head :: segments) := by
  fun_induction completesClassName fresh text with
  | case1 fresh =>
      have hFresh : fresh = false := by simpa using hScan
      exact ⟨[], [], by simp [hFresh], by simp, by simp, by simp⟩
  | case2 c cs ih =>
      obtain ⟨hStart, hRest⟩ := Bool.and_eq_true_iff.1 hScan
      obtain ⟨head, segments, _, hHead, hSegments, rfl⟩ := ih hRest
      refine ⟨c :: head, segments, fun _ => ⟨c, head, rfl, hStart, hHead⟩, ?_,
        hSegments, ?_⟩
      · simpa using ⟨isNamePart_of_isSegmentStart hStart, hHead⟩
      · rw [List.intercalate_cons_cons_left]
  | case3 cs ih =>
      obtain ⟨head, segments, hFresh, _, hSegments, rfl⟩ := ih hScan
      refine ⟨[], head :: segments, by simp, by simp, ?_, ?_⟩
      · simpa using ⟨hFresh rfl, hSegments⟩
      · rw [List.intercalate_cons_cons]
        rfl
  | case4 c cs hDot ih =>
      obtain ⟨hPart, hRest⟩ := Bool.and_eq_true_iff.1 hScan
      obtain ⟨head, segments, _, hHead, hSegments, rfl⟩ := ih hRest
      refine ⟨c :: head, segments, by simp, ?_, hSegments, ?_⟩
      · simpa using ⟨hPart, hHead⟩
      · rw [List.intercalate_cons_cons_left]

/-- Inside a segment `completesClassName` passes over name parts. -/
theorem completesClassName_append {head : List Char}
    (hHead : ∀ c ∈ head, isNamePart c = true) (rest : List Char) :
    completesClassName false (head ++ rest) =
      completesClassName false rest := by
  induction head with
  | nil => rfl
  | cons c cs ih =>
      have hPart : isNamePart c = true := hHead c List.mem_cons_self
      rw [List.cons_append, completesClassName,
        if_neg (ne_dot_of_isNamePart hPart), hPart, Bool.true_and]
      exact ih fun d hd => hHead d (List.mem_cons_of_mem c hd)

/-- `completesClassName` accepts name parts followed by further segments. -/
theorem completesClassName_intercalate {head : List Char}
    (hHead : ∀ c ∈ head, isNamePart c = true) {segments : List (List Char)}
    (hSegments : ∀ s ∈ segments, IsSegment s) :
    completesClassName false (['.'].intercalate (head :: segments)) = true := by
  induction segments generalizing head with
  | nil =>
      rw [List.intercalate_singleton]
      simpa [completesClassName] using completesClassName_append hHead []
  | cons segment segments ih =>
      obtain ⟨c, cs, rfl, hStart, hParts⟩ :=
        hSegments segment List.mem_cons_self
      have hRest :=
        ih hParts fun s hs => hSegments s (List.mem_cons_of_mem _ hs)
      rw [List.intercalate_cons_cons, List.append_assoc,
        completesClassName_append hHead, List.singleton_append,
        List.intercalate_cons_cons_left]
      simpa [completesClassName, hStart] using hRest

/-- The scan `isClassName` accepts exactly the dotted sequences of segments. -/
theorem isClassName_iff (text : List Char) :
    isClassName text = true ↔ IsClassName text := by
  constructor
  · intro hScan
    obtain ⟨head, segments, hHead, _, hSegments, hText⟩ :=
      exists_segments_of_completesClassName hScan
    refine ⟨head :: segments, by simp, ?_, hText⟩
    simpa using ⟨hHead rfl, hSegments⟩
  · rintro ⟨pieces, hNonempty, hPieces, rfl⟩
    cases pieces with
    | nil => exact absurd rfl hNonempty
    | cons piece pieces =>
        obtain ⟨c, cs, rfl, hStart, hParts⟩ := hPieces piece List.mem_cons_self
        have hRest := completesClassName_intercalate hParts
          fun s hs => hPieces s (List.mem_cons_of_mem _ hs)
        rw [List.intercalate_cons_cons_left]
        simpa [isClassName, completesClassName, hStart] using hRest

/-! ## Internal array names -/

namespace InternalName

/-- The descriptor of a class: `L`, its name and `;`. -/
def classDescriptor (name : List Char) : List Char := 'L' :: (name ++ [';'])

/-- The element of an internal array name: the letter of a primitive type other
than `void`, or the descriptor of a class name. -/
def IsElement (descriptor : List Char) : Prop :=
  (∃ p, p ≠ Primitive.void ∧ descriptor = [p.code]) ∨
    ∃ name, IsClassName name ∧ descriptor = classDescriptor name

/-- An internal array name, told without the scan `isValid`: one or more
brackets and an element. -/
def IsInternalName (text : List Char) : Prop :=
  ∃ dimensions descriptor, 0 < dimensions ∧ IsElement descriptor ∧
    text = List.replicate dimensions '[' ++ descriptor

/-- The brackets of a text, as many as its `depth`, and its `element` make up
the text. -/
theorem brackets_append_element (text : List Char) :
    List.replicate (depth text) '[' ++ element text = text := by
  have hBrackets : text.takeWhile (· = '[') =
      List.replicate (depth text) '[' := by
    refine List.eq_replicate_iff.2 ⟨rfl, fun c hc => ?_⟩
    simpa using List.all_eq_true.1 List.all_takeWhile c hc
  rw [← hBrackets]
  exact List.takeWhile_append_dropWhile

/-- A run of brackets is the `depth` of a text that goes on with something
else. -/
theorem depth_brackets (n : Nat) {descriptor : List Char}
    (hHead : descriptor.head? ≠ some '[') :
    depth (List.replicate n '[' ++ descriptor) = n := by
  have hStop : descriptor.takeWhile (· = '[') = [] := by
    cases descriptor with
    | nil => rfl
    | cons c cs => exact List.takeWhile_cons_of_neg (by simpa using hHead)
  rw [depth, List.takeWhile_append_of_pos (by simp), hStop]
  simp

/-- What follows a run of brackets is the `element`. -/
theorem element_brackets (n : Nat) {descriptor : List Char}
    (hHead : descriptor.head? ≠ some '[') :
    element (List.replicate n '[' ++ descriptor) = descriptor := by
  rw [element, List.dropWhile_append_of_pos (by simp)]
  cases descriptor with
  | nil => rfl
  | cons c cs => exact List.dropWhile_cons_of_neg (by simpa using hHead)

/-- No descriptor that `IsElement` accepts starts with a bracket. -/
theorem head?_ne_bracket_of_isElement {descriptor : List Char}
    (hElement : IsElement descriptor) : descriptor.head? ≠ some '[' := by
  rcases hElement with ⟨p, _, rfl⟩ | ⟨name, _, rfl⟩
  · cases p <;> simp [Primitive.code]
  · simp [classDescriptor]

/-- No internal array name ends with a bracket. -/
theorem IsInternalName.getLast?_ne_bracket {text : List Char}
    (hInternal : IsInternalName text) : text.getLast? ≠ some '[' := by
  obtain ⟨n, descriptor, -, hElement, rfl⟩ := hInternal
  rcases hElement with ⟨p, -, rfl⟩ | ⟨name, -, rfl⟩
  · rw [List.getLast?_concat]
    cases p <;> decide
  · rw [classDescriptor, ← List.cons_append, ← List.append_assoc,
      List.getLast?_concat]
    decide

@[simp] theorem body_classDescriptor (name : List Char) :
    body (classDescriptor name) = name := by
  simp [body, classDescriptor]

theorem isPrimitiveCode_iff (descriptor : List Char) :
    isPrimitiveCode descriptor = true ↔ ∃ p, p ≠ Primitive.void ∧
    descriptor = [p.code] := by
  constructor
  · intro hCode
    match descriptor, hCode with
    | [c], hCode =>
        obtain ⟨p, hFind⟩ := Option.isSome_iff_exists.1 hCode
        obtain ⟨rfl, hVoid⟩ := Primitive.code_of_ofCode? hFind
        exact ⟨p, hVoid, rfl⟩
  · rintro ⟨p, hVoid, rfl⟩
    simp [isPrimitiveCode, Primitive.ofCode?_code hVoid]

theorem isClassDescriptor_iff (descriptor : List Char) :
    isClassDescriptor descriptor = true ↔
      ∃ name, IsClassName name ∧ descriptor = classDescriptor name := by
  constructor
  · intro hDescriptor
    unfold isClassDescriptor at hDescriptor
    split at hDescriptor
    · next rest =>
        obtain ⟨hLast, hName⟩ := Bool.and_eq_true_iff.1 hDescriptor
        obtain ⟨name, rfl⟩ := List.getLast?_eq_some_iff.1 (by simpa using hLast)
        rw [List.dropLast_concat] at hName
        exact ⟨name, (isClassName_iff name).1 hName, rfl⟩
    · simp at hDescriptor
  · rintro ⟨name, hName, rfl⟩
    simpa [isClassDescriptor, classDescriptor]
      using (isClassName_iff name).2 hName

/-- The scan `isValid` accepts exactly the texts of the shape
`IsInternalName`. -/
theorem isValid_iff (text : List Char) :
    isValid text = true ↔ IsInternalName text := by
  have hElement : ∀ descriptor,
      (isPrimitiveCode descriptor || isClassDescriptor descriptor) = true ↔
        IsElement descriptor := by
    intro descriptor
    rw [Bool.or_eq_true, isPrimitiveCode_iff, isClassDescriptor_iff, IsElement]
  rw [isValid, Bool.and_eq_true, decide_eq_true_eq, hElement]
  constructor
  · rintro ⟨hDepth, hElement⟩
    exact ⟨depth text, element text, hDepth, hElement,
      (brackets_append_element text).symm⟩
  · rintro ⟨n, descriptor, hPositive, hElement, rfl⟩
    have hHead := head?_ne_bracket_of_isElement hElement
    rw [depth_brackets n hHead, element_brackets n hHead]
    exact ⟨hPositive, hElement⟩

end InternalName

end JvmTypes

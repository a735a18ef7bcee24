/-! # Cutting texts

`splitFirst?` cuts at the first separator, `splitEach` at every one, and `splitBytes?` after a
number of bytes.
-/

namespace ClassAnnotator.Text

/-- The parts before and after the first `sep`, if there is one. -/
def splitFirst? (sep : Char) : List Char → Option (List Char × List Char)
  | [] => none
  | c :: r =>
    if c = sep then some ([], r)
    else (splitFirst? sep r).map fun (a, b) => (c :: a, b)

/-- The parts between separators: one more than there are separators. -/
def splitEach (sep : Char) : List Char → List (List Char)
  | [] => [[]]
  | c :: r =>
    if c = sep then [] :: splitEach sep r
    else
      match splitEach sep r with
      | [] => [[c]]
      | part :: parts => (c :: part) :: parts

/-- The lines of a text that a line feed follows. A carriage return in front of a line feed belongs
to the line break. -/
def lines (s : String) : List String :=
  (splitEach '\n' s.toList).map fun cs =>
    String.ofList (if cs.getLast? == some '\r' then cs.dropLast else cs)

/-- The characters in the first `n` bytes and the characters after them. A cut inside a character
or beyond the end is refused. -/
def splitBytes? (n : Nat) : List Char → Option (List Char × List Char)
  | [] => if n = 0 then some ([], []) else none
  | c :: r =>
    if n = 0 then some ([], c :: r)
    else if n < c.utf8Size then none
    else (splitBytes? (n - c.utf8Size) r).map fun (a, b) => (c :: a, b)

/-- What follows `front` in a text that starts with it. -/
def dropFront? : List Char → List Char → Option (List Char)
  | [], cs => some cs
  | _ :: _, [] => none
  | f :: fs, c :: cs => if f = c then dropFront? fs cs else none

def cut? (sep : Char) (s : String) : Option (String × String) :=
  (splitFirst? sep s.toList).map fun (a, b) => (String.ofList a, String.ofList b)

def after? (front s : String) : Option String :=
  (dropFront? front.toList s.toList).map String.ofList

theorem splitFirst?_eq_none_iff {sep : Char} {cs : List Char} :
    splitFirst? sep cs = none ↔ sep ∉ cs := by
  induction cs with
  | nil => simp [splitFirst?]
  | cons c r ih =>
    by_cases h : c = sep
    · simp [splitFirst?, h]
    · simp [splitFirst?, h, ih, Ne.symm h]

theorem splitFirst?_eq_some_iff {sep : Char} {cs a b : List Char} :
    splitFirst? sep cs = some (a, b) ↔ cs = a ++ sep :: b ∧ sep ∉ a := by
  induction cs generalizing a with
  | nil => simp [splitFirst?]
  | cons c r ih =>
    by_cases h : c = sep
    · cases a with
      | nil => simp [splitFirst?, h]
      | cons d t => simp [splitFirst?, h]; grind
    · cases a with
      | nil => simp [splitFirst?, h]
      | cons d t =>
        simp only [splitFirst?, h, if_false, Option.map_eq_some_iff, Prod.mk.injEq,
          List.cons.injEq, Prod.exists, List.cons_append, List.mem_cons, not_or]
        constructor
        · rintro ⟨a', b', hs, ⟨rfl, rfl⟩, rfl⟩
          obtain ⟨hr, hn⟩ := ih.mp hs
          exact ⟨⟨rfl, hr⟩, fun e => h e.symm, hn⟩
        · rintro ⟨⟨rfl, hr⟩, _, hn⟩
          exact ⟨t, b, ih.mpr ⟨hr, hn⟩, ⟨rfl, rfl⟩, rfl⟩

theorem dropFront?_eq_some_iff {front cs r : List Char} :
    dropFront? front cs = some r ↔ cs = front ++ r := by
  induction front generalizing cs with
  | nil => simp [dropFront?]
  | cons f fs ih =>
    cases cs with
    | nil => simp [dropFront?]
    | cons c cs =>
      by_cases h : f = c
      · simp [dropFront?, h, ih]
      · simp [dropFront?, h, Ne.symm h]

theorem cut?_eq_none_iff {sep : Char} {s : String} : cut? sep s = none ↔ sep ∉ s.toList := by
  simp [cut?, splitFirst?_eq_none_iff]

theorem cut?_eq_some_iff {sep : Char} {s a b : String} :
    cut? sep s = some (a, b) ↔ s = a ++ String.singleton sep ++ b ∧ sep ∉ a.toList := by
  simp only [cut?, Option.map_eq_some_iff, Prod.exists, Prod.mk.injEq]
  constructor
  · rintro ⟨x, y, h, rfl, rfl⟩
    obtain ⟨hs, hx⟩ := splitFirst?_eq_some_iff.mp h
    exact ⟨String.toList_injective (by simp [hs]), by simpa using hx⟩
  · rintro ⟨rfl, ha⟩
    exact ⟨a.toList, b.toList, splitFirst?_eq_some_iff.mpr ⟨by simp, ha⟩, by simp, by simp⟩

theorem after?_eq_some_iff {front s r : String} : after? front s = some r ↔ s = front ++ r := by
  simp only [after?, Option.map_eq_some_iff, dropFront?_eq_some_iff]
  constructor
  · rintro ⟨cs, h, rfl⟩
    exact String.toList_injective (by simp [h])
  · rintro rfl
    exact ⟨r.toList, by simp, by simp⟩

end ClassAnnotator.Text

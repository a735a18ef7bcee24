import ClassAnnotator.Feature
import ClassAnnotator.Text.Split
import ClassAnnotator.Text.Words

/-! # The grammar of annotations

An annotation is the name of a built-in feature, with its options in brackets if it has any. An
option is a word, an equals sign and a literal: a boolean, a word in quotes, or at least two quoted
words between braces. A reader follows the grammar. What it reads is exactly what is written, so no
text is written for two annotations.
-/

namespace ClassAnnotator

open Text

def IsWord (cs : List Char) : Prop := cs ≠ [] ∧ ∀ c ∈ cs, isWordChar c = true

instance (cs : List Char) : Decidable (IsWord cs) :=
  decidable_of_iff (cs ≠ [] ∧ cs.all isWordChar = true) (and_congr_right fun _ => List.all_eq_true)

theorem IsWord.not_mem {cs : List Char} {c : Char} (h : IsWord cs) (hc : isWordChar c = false) :
    c ∉ cs := by
  intro hm
  rw [h.2 c hm] at hc
  cases hc

inductive Literal where
  | boolean (b : Bool)
  | word (w : List Char)
  | array (ws : List (List Char))
  deriving DecidableEq, Repr

structure Assignment where
  key : List Char
  value : Literal
  deriving DecidableEq, Repr

structure Annotation where
  name : List Char
  options : List Assignment
  deriving DecidableEq, Repr

namespace Grammar

variable {α : Type}

/-- Parts with a comma and a blank between them, where `W` says how a part is written. -/
inductive Listed (W : α → List Char → Prop) : List α → List Char → Prop where
  | one {a : α} {t : List Char} : W a t → Listed W [a] t
  | more {a : α} {t : List Char} {as : List α} {r : List Char} :
      W a t → Listed W as r → Listed W (a :: as) (t ++ ',' :: ' ' :: r)

inductive Quoted : List Char → List Char → Prop where
  | mk {w : List Char} : IsWord w → Quoted w ('"' :: w ++ ['"'])

def booleanText (b : Bool) : List Char := if b then "true".toList else "false".toList

inductive WrittenLiteral : Literal → List Char → Prop where
  | boolean (b : Bool) : WrittenLiteral (.boolean b) (booleanText b)
  | word {w t : List Char} : Quoted w t → WrittenLiteral (.word w) t
  | array {ws : List (List Char)} {t : List Char} : Listed Quoted ws t → 2 ≤ ws.length →
      WrittenLiteral (.array ws) ('{' :: t ++ ['}'])

inductive WrittenAssignment : Assignment → List Char → Prop where
  | mk {key : List Char} {value : Literal} {t : List Char} : IsWord key → WrittenLiteral value t →
      WrittenAssignment ⟨key, value⟩ (key ++ '=' :: t)

def IsName (cs : List Char) : Prop := ∃ f ∈ Feature.catalog, f.name.toList = cs

instance (cs : List Char) : Decidable (IsName cs) :=
  inferInstanceAs (Decidable (∃ f ∈ Feature.catalog, _))

inductive Written : Annotation → List Char → Prop where
  | bare {name : List Char} : IsName name → Written ⟨name, []⟩ name
  | options {name : List Char} {os : List Assignment} {t : List Char} : IsName name →
      Listed WrittenAssignment os t → Written ⟨name, os⟩ (name ++ '(' :: t ++ [')'])

/-- A reader takes something from the front of a text and leaves the rest. -/
abbrev Reader (α : Type) := List Char → Option (α × List Char)

def quoted? : Reader (List Char) := fun cs =>
  (dropFront? ['"'] cs).bind fun r => (splitFirst? '"' r).filter fun (w, _) => IsWord w

def listed? (read : Reader α) (close : Char) (cs : List Char) : Option (List α × List Char) :=
  match read cs with
  | none => none
  | some (a, rest) =>
    match dropFront? [',', ' '] rest with
    | none => (dropFront? [close] rest).map ([a], ·)
    | some r =>
      -- No reader gives back more than it was given, so the test only makes the recursion end.
      if r.length < cs.length then (listed? read close r).map fun (as, s) => (a :: as, s) else none
termination_by cs.length

def array? : Reader (List (List Char)) := fun cs =>
  (dropFront? ['{'] cs).bind fun r => (listed? quoted? '}' r).filter fun (ws, _) => 2 ≤ ws.length

/-- The first character of a literal tells its kind. -/
def literal? : Reader Literal := fun cs =>
  match cs.head? with
  | some '{' => (array? cs).map fun (ws, rest) => (.array ws, rest)
  | some '"' => (quoted? cs).map fun (w, rest) => (.word w, rest)
  | some 't' => (dropFront? (booleanText true) cs).map (.boolean true, ·)
  | some 'f' => (dropFront? (booleanText false) cs).map (.boolean false, ·)
  | _ => none

def assignment? : Reader Assignment := fun cs =>
  (splitFirst? '=' cs).bind fun (key, r) =>
    if IsWord key then (literal? r).map fun (value, rest) => (⟨key, value⟩, rest) else none

def annotation? (cs : List Char) : Option Annotation :=
  match splitFirst? '(' cs with
  | none => if IsName cs then some ⟨cs, []⟩ else none
  | some (name, r) =>
    if IsName name then
      match listed? assignment? ')' r with
      | some (os, []) => some ⟨name, os⟩
      | _ => none
    else none

/-- The reader takes from a text what is written at its front, and nothing else. -/
def Reads (read : Reader α) (W : α → List Char → Prop) : Prop :=
  ∀ cs a rest, read cs = some (a, rest) ↔ ∃ t, W a t ∧ cs = t ++ rest

variable {β : Type} {read : Reader α} {W : α → List Char → Prop} {close : Char}
  {cs rest t : List Char} {as : List α}

theorem map_taken_eq_some_iff {taken : Option (α × List Char)} {f : α → β} {b : β} :
    taken.map (fun (a, r) => (f a, r)) = some (b, rest) ↔
      ∃ a, taken = some (a, rest) ∧ f a = b := by
  simp [Option.map_eq_some_iff]

theorem map_left_eq_some_iff {left : Option (List Char)} {a b : α} :
    left.map (a, ·) = some (b, rest) ↔ left = some rest ∧ a = b := by
  cases left <;> simp [and_comm]

theorem reads_quoted? : Reads quoted? Quoted := by
  intro cs w rest
  simp only [quoted?, Option.bind_eq_some_iff, dropFront?_eq_some_iff, Option.filter_eq_some_iff,
    splitFirst?_eq_some_iff, decide_eq_true_eq]
  constructor
  · rintro ⟨_, rfl, ⟨rfl, -⟩, hw⟩
    exact ⟨_, .mk hw, by simp⟩
  · rintro ⟨_, ⟨hw⟩, rfl⟩
    exact ⟨w ++ '"' :: rest, by simp, ⟨rfl, hw.not_mem rfl⟩, hw⟩

theorem listed_of_listed? (hr : Reads read W) (h : listed? read close cs = some (as, rest)) :
    ∃ t, Listed W as t ∧ cs = t ++ close :: rest := by
  fun_induction listed? read close cs generalizing as with
  | case1 cs hn => cases h
  | case2 cs a r ha hd =>
    obtain ⟨hs, rfl⟩ := map_left_eq_some_iff.mp h
    obtain ⟨t, ht, rfl⟩ := (hr cs a r).mp ha
    exact ⟨t, .one ht, by rw [dropFront?_eq_some_iff.mp hs]; rfl⟩
  | case3 cs a r ha s hd hlt ih =>
    obtain ⟨bs, hs, rfl⟩ := map_taken_eq_some_iff.mp h
    obtain ⟨t, ht, rfl⟩ := (hr cs a r).mp ha
    obtain ⟨t', ht', rfl⟩ := ih hs
    exact ⟨_, .more ht ht', by rw [dropFront?_eq_some_iff.mp hd]; simp⟩
  | case4 cs a r ha s hd hlt => cases h

theorem listed?_of_listed (hr : Reads read W) (hc : close ≠ ',') (h : Listed W as t)
    (rest : List Char) : listed? read close (t ++ close :: rest) = some (as, rest) := by
  induction h with
  | @one a t ht =>
    have hread : read (t ++ close :: rest) = some (a, close :: rest) := (hr _ _ _).mpr ⟨t, ht, rfl⟩
    rw [listed?, hread]
    simp [dropFront?, Ne.symm hc]
  | @more a t as r ht _ ih =>
    have hread : read (t ++ ',' :: ' ' :: r ++ close :: rest) =
        some (a, ',' :: ' ' :: (r ++ close :: rest)) := (hr _ _ _).mpr ⟨t, ht, by simp⟩
    have hlt : (r ++ close :: rest).length < (t ++ ',' :: ' ' :: r ++ close :: rest).length := by
      simp
      omega
    rw [listed?, hread]
    simp only [dropFront?, if_true, if_pos hlt, ih, Option.map_some]

theorem listed?_eq_some_iff (hr : Reads read W) (hc : close ≠ ',') :
    listed? read close cs = some (as, rest) ↔ ∃ t, Listed W as t ∧ cs = t ++ close :: rest := by
  constructor
  · exact listed_of_listed? hr
  · rintro ⟨t, ht, rfl⟩
    exact listed?_of_listed hr hc ht rest

theorem array?_eq_some_iff {ws : List (List Char)} : array? cs = some (ws, rest) ↔
    ∃ t, Listed Quoted ws t ∧ 2 ≤ ws.length ∧ cs = '{' :: t ++ '}' :: rest := by
  simp only [array?, Option.bind_eq_some_iff, dropFront?_eq_some_iff, Option.filter_eq_some_iff,
    listed?_eq_some_iff reads_quoted? (show '}' ≠ ',' by decide), decide_eq_true_eq]
  constructor
  · rintro ⟨_, rfl, ⟨t, ht, rfl⟩, hlen⟩
    exact ⟨t, ht, hlen, rfl⟩
  · rintro ⟨t, ht, hlen, rfl⟩
    exact ⟨_, rfl, ⟨t, ht, rfl⟩, hlen⟩

theorem reads_literal? : Reads literal? WrittenLiteral := by
  intro cs value rest
  constructor
  · intro h
    unfold literal? at h
    split at h
    · obtain ⟨ws, ha, rfl⟩ := map_taken_eq_some_iff.mp h
      obtain ⟨t, ht, hlen, rfl⟩ := array?_eq_some_iff.mp ha
      exact ⟨_, .array ht hlen, by simp⟩
    · obtain ⟨w, hw, rfl⟩ := map_taken_eq_some_iff.mp h
      obtain ⟨t, ht, rfl⟩ := (reads_quoted? cs w rest).mp hw
      exact ⟨t, .word ht, rfl⟩
    · obtain ⟨hr, rfl⟩ := map_left_eq_some_iff.mp h
      exact ⟨_, .boolean true, dropFront?_eq_some_iff.mp hr⟩
    · obtain ⟨hr, rfl⟩ := map_left_eq_some_iff.mp h
      exact ⟨_, .boolean false, dropFront?_eq_some_iff.mp hr⟩
    · cases h
  · rintro ⟨t, ht, rfl⟩
    -- The first character of what is written selects the branch of the reader.
    cases ht with
    | boolean b => cases b <;> rfl
    | word hw =>
      have hread := (reads_quoted? _ _ rest).mpr ⟨_, hw, rfl⟩
      cases hw
      exact map_taken_eq_some_iff.mpr ⟨_, hread, rfl⟩
    | @array ws t ht hlen =>
      have hread : array? ('{' :: t ++ ['}'] ++ rest) = some (ws, rest) :=
        array?_eq_some_iff.mpr ⟨t, ht, hlen, by simp⟩
      exact map_taken_eq_some_iff.mpr ⟨_, hread, rfl⟩

theorem reads_assignment? : Reads assignment? WrittenAssignment := by
  intro cs o rest
  obtain ⟨key, value⟩ := o
  simp only [assignment?, Option.bind_eq_some_iff, Prod.exists, splitFirst?_eq_some_iff]
  constructor
  · rintro ⟨k, r, ⟨rfl, -⟩, h⟩
    split at h
    · next hk =>
      obtain ⟨v, hv, he⟩ := map_taken_eq_some_iff.mp h
      cases he
      obtain ⟨t, ht, rfl⟩ := (reads_literal? r value rest).mp hv
      exact ⟨_, .mk hk ht, by simp⟩
    · cases h
  · rintro ⟨_, @⟨_, _, t, hk, ht⟩, rfl⟩
    have hread := (reads_literal? _ _ rest).mpr ⟨t, ht, rfl⟩
    refine ⟨key, t ++ rest, ⟨by simp, hk.not_mem rfl⟩, ?_⟩
    rw [if_pos hk]
    exact map_taken_eq_some_iff.mpr ⟨value, hread, rfl⟩

theorem IsName.not_mem {name : List Char} (h : IsName name) : '(' ∉ name := by
  have hnames : ∀ f ∈ Feature.catalog, '(' ∉ f.name.toList := by decide
  obtain ⟨f, hf, rfl⟩ := h
  exact hnames f hf

theorem annotation?_eq_some_iff {a : Annotation} : annotation? cs = some a ↔ Written a cs := by
  constructor
  · intro h
    unfold annotation? at h
    split at h
    · split at h
      · next hn =>
        cases h
        exact .bare hn
      · cases h
    · next name r hs =>
      obtain ⟨rfl, -⟩ := splitFirst?_eq_some_iff.mp hs
      split at h
      · next hn =>
        split at h
        · next os hos =>
          cases h
          obtain ⟨t, ht, rfl⟩ := (listed?_eq_some_iff reads_assignment? (by decide)).mp hos
          simpa using Written.options hn ht
        · cases h
      · cases h
  · intro h
    cases h with
    | bare hn =>
      rw [annotation?, splitFirst?_eq_none_iff.mpr hn.not_mem]
      exact if_pos hn
    | @options name os t hn ht =>
      have hs : splitFirst? '(' (name ++ '(' :: t ++ [')']) = some (name, t ++ [')']) :=
        splitFirst?_eq_some_iff.mpr ⟨by simp, hn.not_mem⟩
      have hos : listed? assignment? ')' (t ++ [')']) = some (os, []) :=
        listed?_of_listed reads_assignment? (by decide) ht []
      simp only [annotation?, hs, if_pos hn, hos]

theorem Written.unique {a b : Annotation} (ha : Written a cs) (hb : Written b cs) : a = b :=
  Option.some.inj ((annotation?_eq_some_iff.mpr ha).symm.trans (annotation?_eq_some_iff.mpr hb))

end Grammar

end ClassAnnotator

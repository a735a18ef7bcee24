import ClassAnnotator.Compile
import Mathlib.Data.List.Nodup

/-! # Flags and settings

An entry whose key has no point can be a flag that turns a feature on. An entry whose key has one
is a setting: its owner is the text before the first point and its name is the rest, with all
further points. Which entries a flag collects is decided by its key as it is spelled.
-/

namespace ClassAnnotator

/-- A flag that turns `feature` on, under the key as it is spelled. -/
structure Flag where
  key : String
  feature : Feature
  deriving DecidableEq, Repr

/-- A value that is given to the option `name` of `owner`. -/
structure Setting where
  owner : String
  name : String
  value : String
  deriving DecidableEq, Repr

namespace Setting

def key (x : Setting) : String := x.owner ++ "." ++ x.name

def fragment (x : Setting) : String := Quoting.optionEntry x.name x.value

theorem toList_fragment (x : Setting) :
    x.fragment.toList = x.name.toList ++ '=' :: Quoting.literalChars x.value.toList := by
  simp [fragment, Quoting.optionEntry, Quoting.literal]

end Setting

namespace Properties

/-- The flag that an entry is: its key names a feature and its value is `true`, both in any
case. -/
def flag? (entry : String × String) : Option Flag :=
  if '.' ∉ entry.1.toList ∧ Text.sameIgnoringCase entry.2 "true" = true then
    (Feature.lookup entry.1).map (Flag.mk entry.1)
  else none

def setting? (entry : String × String) : Option Setting :=
  (Text.cut? '.' entry.1).map fun (owner, name) => ⟨owner, name, entry.2⟩

def flags (p : Properties) : List Flag := p.entries.filterMap flag?

def settings (p : Properties) : List Setting := p.entries.filterMap setting?

variable {p : Properties} {e : String × String} {x : Flag} {y : Setting} {f : Feature}
  {key value owner : String}

theorem flag?_eq_some_iff :
    flag? e = some x ↔ e.1 = x.key ∧ '.' ∉ x.key.toList ∧
      Feature.lookup x.key = some x.feature ∧ Text.sameIgnoringCase e.2 "true" = true := by
  obtain ⟨key, feature⟩ := x
  unfold flag?
  split
  · next h =>
    simp only [Option.map_eq_some_iff, Flag.mk.injEq]
    constructor
    · rintro ⟨f, hf, rfl, rfl⟩
      exact ⟨rfl, h.1, hf, h.2⟩
    · rintro ⟨rfl, -, hf, -⟩
      exact ⟨feature, hf, rfl, rfl⟩
  · next h =>
    simp only [reduceCtorEq, false_iff]
    rintro ⟨rfl, hp, -, ht⟩
    exact h ⟨hp, ht⟩

theorem setting?_eq_some_iff :
    setting? e = some y ↔ e = (y.key, y.value) ∧ '.' ∉ y.owner.toList := by
  obtain ⟨key, value⟩ := e
  obtain ⟨owner, name, value'⟩ := y
  simp only [setting?, Option.map_eq_some_iff, Prod.exists, Text.cut?_eq_some_iff,
    Setting.mk.injEq, Setting.key, Prod.mk.injEq]
  constructor
  · rintro ⟨a, b, ⟨hk, ha⟩, rfl, rfl, rfl⟩
    exact ⟨⟨hk, rfl⟩, ha⟩
  · rintro ⟨⟨hk, rfl⟩, ho⟩
    exact ⟨owner, name, ⟨hk, ho⟩, rfl, rfl, rfl⟩

theorem setting?_isSome_iff : (setting? e).isSome = true ↔ '.' ∈ e.1.toList := by
  rw [setting?, Option.isSome_map, ← Option.ne_none_iff_isSome, Ne, Text.cut?_eq_none_iff, not_not]

theorem setting?_eq_none_iff : setting? e = none ↔ '.' ∉ e.1.toList := by
  rw [← setting?_isSome_iff, Option.not_isSome_iff_eq_none]

theorem exists_setting? (h : '.' ∈ e.1.toList) : ∃ y, setting? e = some y :=
  Option.isSome_iff_exists.mp (setting?_isSome_iff.mpr h)

theorem length_settings (p : Properties) :
    p.settings.length = (p.entries.filter ('.' ∈ ·.1.toList)).length := by
  rw [settings, List.length_filterMap_eq_countP, List.countP_eq_length_filter]
  refine congrArg _ (List.filter_congr fun e _ => ?_)
  rw [Bool.eq_iff_iff, setting?_isSome_iff, decide_eq_true_iff]

theorem mem_flags :
    x ∈ p.flags ↔ '.' ∉ x.key.toList ∧ Feature.lookup x.key = some x.feature ∧
      ∃ value, (x.key, value) ∈ p.entries ∧ Text.sameIgnoringCase value "true" = true := by
  simp only [flags, List.mem_filterMap, flag?_eq_some_iff]
  constructor
  · rintro ⟨⟨key, value⟩, hm, rfl, hp, hl, ht⟩
    exact ⟨hp, hl, value, hm, ht⟩
  · rintro ⟨hp, hl, value, hm, ht⟩
    exact ⟨_, hm, rfl, hp, hl, ht⟩

theorem mem_settings :
    y ∈ p.settings ↔ (y.key, y.value) ∈ p.entries ∧ '.' ∉ y.owner.toList := by
  simp [settings, setting?_eq_some_iff]

theorem nodup_keys_filterMap {γ : Type*} {g : String × String → Option γ} {k : γ → String}
    (h : ∀ e a, g e = some a → k a = e.1) : ((p.entries.filterMap g).map k).Nodup := by
  refine List.pairwise_map.mpr (List.Pairwise.filterMap g ?_ (List.pairwise_map.mp p.nodup_keys))
  intro e e' hne a ha a' ha' hk
  exact hne (by rw [← h e a ha, ← h e' a' ha', hk])

theorem nodup_flag_keys (p : Properties) : (p.flags.map Flag.key).Nodup :=
  nodup_keys_filterMap fun _ _ h => (flag?_eq_some_iff.mp h).1.symm

theorem nodup_setting_keys (p : Properties) : (p.settings.map Setting.key).Nodup :=
  nodup_keys_filterMap fun _ _ h => by rw [(setting?_eq_some_iff.mp h).1]

theorem role_eq_enabledFlag_iff :
    EntryRole.of key value = .enabledFlag f ↔ flag? (key, value) = some ⟨key, f⟩ := by
  unfold EntryRole.of EntryRole.isTrue flag?
  by_cases hp : '.' ∈ key.toList
  · simp [hp]
  · cases Feature.lookup key <;> by_cases ht : Text.sameIgnoringCase value "true" = true <;>
      simp [hp, ht]

/-- A flag collects the settings whose owner is its key. -/
theorem fragments_eq (h : '.' ∉ owner.toList) :
    p.fragments owner = (p.settings.filter (·.owner = owner)).map Setting.fragment := by
  rw [settings, List.filter_filterMap, List.map_filterMap, fragments]
  refine List.filterMap_congr fun ⟨key, value⟩ _ => ?_
  dsimp only
  cases ha : Text.after? (owner ++ ".") key with
  | some name =>
    have hs : setting? (key, value) = some ⟨owner, name, value⟩ :=
      setting?_eq_some_iff.mpr ⟨by rw [Text.after?_eq_some_iff.mp ha, Setting.key], h⟩
    simp [hs, Option.filter_some, Setting.fragment]
  | none =>
    cases hs : setting? (key, value) with
    | none => rfl
    | some y =>
      have hk : key = y.owner ++ "." ++ y.name :=
        congrArg Prod.fst (setting?_eq_some_iff.mp hs).1
      have ho : y.owner ≠ owner := by
        rintro rfl
        simp [Text.after?_eq_some_iff.mpr hk] at ha
      simp [Option.filter_some, ho]

end Properties

end ClassAnnotator

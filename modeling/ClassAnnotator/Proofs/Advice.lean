import ClassAnnotator.Proofs.Insertion
import ClassAnnotator.Proofs.OptionNames
import ClassAnnotator.Proofs.Removal

/-! # Advice about orphans

An option is an orphan when no flag has its owner as key. The finding suggests to set the flag
whose key is that of the feature. This helps exactly when the owner is spelled in the same way. To
set the owner as it is spelled always helps.
-/

namespace ClassAnnotator

namespace Association

variable {α β γ : Type*} [DecidableEq α] {key : α}

theorem filterMap_put {g : α × β → Option γ} (h : ∀ value, g (key, value) = none) (value : β)
    (entries : List (α × β)) : (put key value entries).filterMap g = entries.filterMap g := by
  induction entries with
  | nil => simp [put, h]
  | cons e rest ih =>
    obtain ⟨k, v⟩ := e
    by_cases hk : k = key
    · subst hk
      simp [put, h]
    · rw [put, if_neg hk, List.filterMap_cons, List.filterMap_cons, ih]

end Association

namespace Properties

variable {p : Properties} {key value : String} {f g : Feature} {x : Flag} {y : Setting}

theorem settings_insert (hp : '.' ∉ key.toList) (value : String) :
    (p.insert key value).settings = p.settings :=
  Association.filterMap_put (fun _ => by rw [setting?, Text.cut?_eq_none_iff.mpr hp]; rfl) value _

theorem mem_flags_insert (hp : '.' ∉ key.toList) (hf : Feature.lookup key = some f) :
    x ∈ (p.insert key "true").flags ↔ x = ⟨key, f⟩ ∨ x.key ≠ key ∧ x ∈ p.flags := by
  obtain ⟨k, g⟩ := x
  simp only [mem_flags, ← get?_eq_some_iff, get?_insert, Flag.mk.injEq]
  by_cases hk : key = k
  · -- the old value under the key is replaced, so it does not matter whether it was a flag
    subst hk
    constructor
    · rintro ⟨-, hg, -⟩
      exact .inl ⟨rfl, Option.some.inj (hg.symm.trans hf)⟩
    · rintro (⟨-, rfl⟩ | ⟨hne, -⟩)
      · exact ⟨hp, hf, "true", if_pos rfl, Text.sameIgnoringCase_refl _⟩
      · exact absurd rfl hne
  · have hk' : k ≠ key := Ne.symm hk
    simp only [if_neg hk, ne_eq, hk', not_false_eq_true, true_and, false_and, false_or]

/-- Setting the flag `key` makes `y` an option of `f`, and no orphan. -/
structure Adopts (p : Properties) (key : String) (y : Setting) (f : Feature) : Prop where
  no_orphan : y.key ∉ Lint.locations "orphan_option" (p.insert key "true")
  selected : ⟨f, ((p.insert key "true").settingsOf f).map Setting.fragment⟩ ∈
    (p.insert key "true").compile.features
  collected : y ∈ (p.insert key "true").settingsOf f

/-- Whatever a finding about an orphan suggests makes it an option of the suggested feature. -/
def AdviceHelps (p : Properties) : Prop :=
  ∀ i ∈ Lint.issues p, i.kind = "orphan_option" →
    ∀ key, i.suggestion = some ("Add " ++ key ++ " = \"true\"") →
    ∀ y ∈ p.settings, y.key = i.location → ∃ f, f.key = key ∧ p.Adopts key y f

theorem not_adviceHelps_of_other_spelling :
    let p := Properties.ofList [("Accessors.prefix", "get")]
    (Lint.issues p).map Lint.Issue.suggestion = [some "Add accessors = \"true\""] ∧
      ¬ p.AdviceHelps := by
  intro p
  refine ⟨by decide, fun h => ?_⟩
  have hy : (⟨"Accessors", "prefix", "get"⟩ : Setting) ∈ p.settings := by decide
  have hi : (Lint.Finding.orphanOption "Accessors.prefix" "Accessors").issue ∈ Lint.issues p := by
    decide
  obtain ⟨f, -, hadopts⟩ := h _ hi rfl "accessors" (by decide) _ hy rfl
  exact hadopts.no_orphan (by decide)

section

variable (hy : y ∈ p.settings) (ho : y.owner ∉ p.flags.map Flag.key) (hp : '.' ∉ key.toList)
  (hf : Feature.lookup key = some f)
include hy ho hp hf

/-- An orphan is an orphan still, unless its owner is the flag that is set. -/
theorem orphan_insert_iff :
    y.key ∈ Lint.locations "orphan_option" (p.insert key "true") ↔ y.owner ≠ key := by
  have hy' : y ∈ (p.insert key "true").settings := (settings_insert hp _).symm ▸ hy
  rw [Lint.key_mem_locations_orphanOption hy', not_iff_not]
  constructor
  · intro hm
    obtain ⟨x, hx, hk⟩ := List.mem_map.mp hm
    rcases (mem_flags_insert hp hf).mp hx with rfl | ⟨-, hx⟩
    · exact hk.symm
    · exact absurd (List.mem_map.mpr ⟨x, hx, hk⟩) ho
  · rintro rfl
    exact List.mem_map_of_mem ((mem_flags_insert hp hf).mpr (.inl rfl))

theorem mem_settingsOf_insert_iff :
    y ∈ (p.insert key "true").settingsOf g ↔ y.owner = key ∧ g = f := by
  rw [mem_settingsOf, settings_insert hp, mem_flags_insert hp hf]
  constructor
  · rintro ⟨-, he | ⟨-, hx⟩⟩
    · exact Flag.mk.inj he
    · exact absurd (List.mem_map_of_mem hx) ho
  · rintro ⟨rfl, rfl⟩
    exact ⟨hy, .inl rfl⟩

theorem adopts_iff : p.Adopts key y f ↔ y.owner = key := by
  constructor
  · intro h
    exact ((mem_settingsOf_insert_iff hy ho hp hf).mp h.collected).1
  · intro h
    have hx : ⟨key, f⟩ ∈ (p.insert key "true").flags := (mem_flags_insert hp hf).mpr (.inl rfl)
    refine ⟨fun hm => (orphan_insert_iff hy ho hp hf).mp hm h, ?_,
      (mem_settingsOf_insert_iff hy ho hp hf).mpr ⟨h, rfl⟩⟩
    rw [← collected_eq_map_settingsOf]
    exact mem_features_compile.mpr ⟨f, feature_mem_namedFeatures hx, rfl⟩

end

/-- A finding about an orphan suggests the key of the feature that its owner names. The suggestion
helps exactly when the owner is spelled like this key. If it is not, the setting stays an orphan
and no feature collects it. Setting the owner as it is spelled makes the setting an option of the
same feature. -/
theorem adopts_suggested_iff (p : Properties) :
    ∀ i ∈ Lint.issues p, i.kind = "orphan_option" →
      ∀ key, i.suggestion = some ("Add " ++ key ++ " = \"true\"") →
      ∃ y ∈ p.settings, ∃ f, y.key = i.location ∧ Feature.lookup y.owner = some f ∧ f.key = key ∧
        (p.Adopts key y f ↔ y.owner = key) ∧
        (y.owner ≠ key → y.key ∈ Lint.locations "orphan_option" (p.insert key "true") ∧
          ∀ g, y ∉ (p.insert key "true").settingsOf g) ∧
        p.Adopts y.owner y f := by
  intro i hi hk key hs
  obtain ⟨y, hy, ho, rfl⟩ := Lint.exists_of_issue_orphanOption hi hk
  obtain ⟨f, hf, he⟩ := Option.map_eq_some_iff.mp hs
  have hkey : f.key = key := by simpa using he
  obtain ⟨hlookup, hp⟩ := Feature.lookup_key f (Catalog.mem_of_lookup hf)
  rw [hkey] at hlookup hp
  have hpo : '.' ∉ y.owner.toList := (mem_settings.mp hy).2
  refine ⟨y, hy, f, rfl, hf, hkey, adopts_iff hy ho hp hlookup, fun hne => ⟨?_, fun g hg => ?_⟩,
    (adopts_iff hy ho hpo hf).mpr rfl⟩
  · exact (orphan_insert_iff hy ho hp hlookup).mpr hne
  · exact hne ((mem_settingsOf_insert_iff hy ho hp hlookup).mp hg).1

theorem adopts_suggested_iff_of_two_spellings :
    let p := Properties.ofList
      [("toString", "false"), ("toString.of", "id"), ("Builder.a.b", "x"), ("builder", "no")]
    let f : Feature := ⟨"toString", "@ToString", "lombok.ToString", []⟩
    let g : Feature := ⟨"builder", "@Builder", "lombok.Builder", []⟩
    p.Adopts "toString" ⟨"toString", "of", "id"⟩ f ∧
      ¬ p.Adopts "builder" ⟨"Builder", "a.b", "x"⟩ g ∧
      p.Adopts "Builder" ⟨"Builder", "a.b", "x"⟩ g := by
  intro p f g
  have hadvice : ∀ y ∈ p.settings, ∀ h : Feature, Feature.lookup y.owner = some h →
      (Lint.Finding.orphanOption y.key y.owner).issue ∈ Lint.issues p →
      (p.Adopts h.key y h ↔ y.owner = h.key) ∧ p.Adopts y.owner y h := by
    intro y hy h hh hi
    have hs : (Lint.Finding.orphanOption y.key y.owner).suggestion =
        some ("Add " ++ h.key ++ " = \"true\"") := by rw [Lint.Finding.suggestion, hh]; rfl
    obtain ⟨z, hz, k, hkey, hk, -, hiff, -, hspelled⟩ := adopts_suggested_iff p _ hi rfl _ hs
    obtain rfl := List.inj_on_of_nodup_map p.nodup_setting_keys hz hy hkey
    obtain rfl := Option.some.inj (hk.symm.trans hh)
    exact ⟨hiff, hspelled⟩
  obtain ⟨hsame, -⟩ := hadvice ⟨"toString", "of", "id"⟩ (by decide) f (by decide) (by decide)
  obtain ⟨hother, hspelled⟩ :=
    hadvice ⟨"Builder", "a.b", "x"⟩ (by decide) g (by decide) (by decide)
  exact ⟨hsame.mpr rfl, mt hother.mp (by decide), hspelled⟩

end Properties

end ClassAnnotator

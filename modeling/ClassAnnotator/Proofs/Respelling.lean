import ClassAnnotator.Proofs.Described
import ClassAnnotator.Proofs.Findings
import ClassAnnotator.Proofs.Insertion

/-! # Respelling keys

Features are found under their keys in any case, but options follow flags and owners as these are
spelled. So a change of spelling has no effect if the keys of settings follow their owners and if
no owner comes to be spelled like the flag of another one. The same features are compiled with the
same options, and the same findings are located at the new keys.
-/

namespace ClassAnnotator

namespace Text

theorem toLower_eq_point_iff {c : Char} : c.toLower = '.' ↔ c = '.' := by
  unfold Char.toLower
  split
  · next hupper =>
    -- A letter in upper case is no point, and neither is the letter in lower case.
    constructor
    · intro he
      have hlow : 'A'.val.toNat ≤ c.val.toNat := hupper.1
      have hhigh : c.val.toNat ≤ 'Z'.val.toNat := hupper.2
      have hval : (c.val + ('a'.val - 'A'.val)).toNat = '.'.val.toNat :=
        congrArg (·.val.toNat) he
      rw [UInt32.toNat_add] at hval
      simp at hlow hhigh hval
      omega
    · rintro rfl
      exact absurd hupper.1 (by decide)
  · rfl

theorem point_mem_iff_of_foldCase_eq {a b : String} (h : foldCase a = foldCase b) :
    '.' ∈ a.toList ↔ '.' ∈ b.toList := by
  have hfold : ∀ s : String, '.' ∈ foldCase s ↔ '.' ∈ s.toList := by
    intro s
    simp [foldCase, toLower_eq_point_iff]
  rw [← hfold, h, hfold]

end Text

/-- A change of spelling: a key without a point keeps its letters up to case, and the key of a
setting follows its owner. -/
structure Respells (r : String → String) : Prop where
  foldCase_eq : ∀ key, '.' ∉ key.toList → Text.foldCase (r key) = Text.foldCase key
  follows : ∀ owner name, '.' ∉ owner.toList → r (owner ++ "." ++ name) = r owner ++ "." ++ name

def Flag.respell (r : String → String) (x : Flag) : Flag := { x with key := r x.key }

def Setting.respell (r : String → String) (y : Setting) : Setting := { y with owner := r y.owner }

namespace Lint.Finding

def respell (r : String → String) : Finding → Finding
  | unknownFeature key => unknownFeature (r key)
  | defaultFeatureFlag key f => defaultFeatureFlag (r key) f
  | nonBooleanFlag key value f => nonBooleanFlag (r key) value f
  | orphanOption key owner => orphanOption (r key) (r owner)
  | unbalancedBraces key value => unbalancedBraces (r key) value

theorem kind_respell (r : String → String) (f : Finding) : (f.respell r).kind = f.kind := by
  cases f <;> rfl

theorem severity_respell (r : String → String) (f : Finding) :
    (f.respell r).severity = f.severity := by
  cases f <;> rfl

theorem location_respell (r : String → String) (f : Finding) :
    (f.respell r).location = r f.location := by
  cases f <;> rfl

end Lint.Finding

variable {r : String → String} {key value : String} {p q : Properties} {e : String × String}
  {y : Setting}

namespace Respells

variable (h : Respells r)
include h

theorem lookup_eq (hp : '.' ∉ key.toList) : Feature.lookup (r key) = Feature.lookup key :=
  Catalog.lookup_congr (h.foldCase_eq key hp)

theorem cut?_eq_none (hc : Text.cut? '.' key = none) : Text.cut? '.' (r key) = none := by
  rw [Text.cut?_eq_none_iff] at hc ⊢
  rwa [Text.point_mem_iff_of_foldCase_eq (h.foldCase_eq key hc)]

theorem cut?_eq_some {owner name : String} (hc : Text.cut? '.' key = some (owner, name)) :
    Text.cut? '.' (r key) = some (r owner, name) := by
  obtain ⟨rfl, ho⟩ := Text.cut?_eq_some_iff.mp hc
  refine Text.cut?_eq_some_iff.mpr ⟨h.follows owner name ho, ?_⟩
  rwa [Text.point_mem_iff_of_foldCase_eq (h.foldCase_eq owner ho)]

theorem point_mem_iff : '.' ∈ (r key).toList ↔ '.' ∈ key.toList := by
  rw [← not_iff_not, ← Text.cut?_eq_none_iff, ← Text.cut?_eq_none_iff]
  refine ⟨fun hr => ?_, h.cut?_eq_none⟩
  cases hc : Text.cut? '.' key with
  | none => rfl
  | some part => rw [h.cut?_eq_some hc] at hr; cases hr

theorem flag?_eq (e : String × String) :
    Properties.flag? (r e.1, e.2) = (Properties.flag? e).map (Flag.respell r) := by
  simp only [Properties.flag?, h.point_mem_iff]
  split
  · next hp => rw [h.lookup_eq hp.1, Option.map_map]; rfl
  · rfl

theorem setting?_eq (e : String × String) :
    Properties.setting? (r e.1, e.2) = (Properties.setting? e).map (Setting.respell r) := by
  unfold Properties.setting?
  cases hc : Text.cut? '.' e.1 with
  | none => rw [h.cut?_eq_none hc]; rfl
  | some part => rw [h.cut?_eq_some hc]; rfl

theorem flagFindings_eq (hp : '.' ∉ key.toList) :
    Lint.flagFindings (r key) value =
      (Lint.flagFindings key value).map (Lint.Finding.respell r) := by
  unfold Lint.flagFindings
  rw [h.lookup_eq hp]
  cases Feature.lookup key with
  | none => rfl
  | some f => dsimp only; split <;> split <;> rfl

end Respells

/-- Respelling does not change what a fragment says, and flags collect the same settings if no
owner becomes the key of another flag. -/
theorem described_respell {flags : List Flag} {settings : List Setting}
    (h : ∀ x ∈ flags, ∀ y ∈ settings, r y.owner = r x.key → y.owner = x.key) :
    described (flags.map (Flag.respell r)) (settings.map (Setting.respell r)) =
      described flags settings := by
  have hnamed : namedFeatures (flags.map (Flag.respell r)) = namedFeatures flags := by
    rw [namedFeatures, List.flatMap_map]
    rfl
  have hcollected : collected (settings.map (Setting.respell r)) (flags.map (Flag.respell r)) =
      collected settings flags := by
    funext f
    rw [collected, collected, List.filter_map, List.flatMap_map]
    refine List.flatMap_congr fun x hx => ?_
    rw [List.filter_map, List.map_map]
    have hsettings : settings.filter ((fun y => decide (y.owner = (x.respell r).key)) ∘
        Setting.respell r) = settings.filter (·.owner = x.key) := by
      refine List.filter_congr fun y hy => decide_eq_decide.mpr ?_
      exact ⟨h x (List.mem_of_mem_filter hx) y hy, congrArg r⟩
    rw [hsettings]
    rfl
  rw [described, described, hnamed, hcollected]

/-- `q` is `p` in another spelling, in which no owner becomes the key of another flag. -/
structure Respelled (r : String → String) (p q : Properties) : Prop extends Respells r where
  entries_eq : q.entries = p.entries.map fun e => (r e.1, e.2)
  owner_eq : ∀ x ∈ p.flags, ∀ y ∈ p.settings, r y.owner = r x.key → y.owner = x.key

namespace Respelled

variable (h : Respelled r p q)
include h

theorem flags_eq : q.flags = p.flags.map (Flag.respell r) := by
  rw [Properties.flags, Properties.flags, h.entries_eq, List.filterMap_map, List.map_filterMap]
  exact List.filterMap_congr fun e _ => h.flag?_eq e

theorem settings_eq : q.settings = p.settings.map (Setting.respell r) := by
  rw [Properties.settings, Properties.settings, h.entries_eq, List.filterMap_map,
    List.map_filterMap]
  exact List.filterMap_congr fun e _ => h.setting?_eq e

theorem compile_eq : q.compile = p.compile := by
  rw [Properties.compile_eq_described, Properties.compile_eq_described, h.flags_eq, h.settings_eq]
  exact described_respell h.owner_eq

theorem ownerEnabled_eq (hy : y ∈ p.settings) :
    Lint.ownerEnabled q (r y.owner) = Lint.ownerEnabled p y.owner := by
  have ho := (Properties.mem_settings.mp hy).2
  have ho' : '.' ∉ (r y.owner).toList := by rwa [h.point_mem_iff]
  rw [Bool.eq_iff_iff, Lint.ownerEnabled_iff ho, Lint.ownerEnabled_iff ho', h.flags_eq,
    List.map_map]
  constructor
  · intro hm
    obtain ⟨x, hx, he⟩ := List.mem_map.mp hm
    exact List.mem_map.mpr ⟨x, hx, (h.owner_eq x hx y hy he.symm).symm⟩
  · intro hm
    obtain ⟨x, hx, he⟩ := List.mem_map.mp hm
    exact List.mem_map.mpr ⟨x, hx, congrArg r he⟩

theorem entryFindings_eq (he : e ∈ p.entries) :
    Lint.entryFindings q (r e.1, e.2) =
      (Lint.entryFindings p e).map (Lint.Finding.respell r) := by
  cases hy : Properties.setting? e with
  | none =>
    have hp := Properties.setting?_eq_none_iff.mp hy
    have hp' : '.' ∉ (r e.1, e.2).1.toList := by rwa [h.point_mem_iff]
    rw [Lint.entryFindings_flag hp, Lint.entryFindings_flag hp', h.flagFindings_eq hp]
  | some y =>
    have hy' : Properties.setting? (r e.1, e.2) = some (y.respell r) := by
      rw [h.setting?_eq, hy, Option.map_some]
    rw [Lint.entryFindings_setting hy, Lint.entryFindings_setting hy', Lint.optionFindings,
      Lint.optionFindings, Setting.respell, h.ownerEnabled_eq (List.mem_filterMap.mpr ⟨e, he, hy⟩)]
    split <;> split <;> rfl

theorem findings_eq :
    Lint.findings q = (Lint.findings p).map (Lint.Finding.respell r) := by
  rw [Lint.findings, Lint.findings, h.entries_eq, List.flatMap_map, List.map_flatMap]
  exact List.flatMap_congr fun e he => h.entryFindings_eq he

end Respelled

/-- `old` becomes `new` where it is the whole key and where it is its owner. -/
def respellKey (old new key : String) : String :=
  if key = old then new
  else
    match Text.after? (old ++ ".") key with
    | some name => new ++ "." ++ name
    | none => key

section

variable {old new owner name : String}

theorem after?_of_not_mem (hp : '.' ∉ key.toList) : Text.after? (old ++ ".") key = none := by
  refine Option.eq_none_iff_forall_ne_some.mpr fun name he => hp ?_
  rw [Text.after?_eq_some_iff.mp he]
  simp

theorem cut?_owner (ho : '.' ∉ owner.toList) :
    Text.cut? '.' (owner ++ "." ++ name) = some (owner, name) :=
  Text.cut?_eq_some_iff.mpr ⟨rfl, ho⟩

theorem after?_owner (hold : '.' ∉ old.toList) (ho : '.' ∉ owner.toList) :
    Text.after? (old ++ ".") (owner ++ "." ++ name) = if owner = old then some name else none := by
  split
  · next h => exact Text.after?_eq_some_iff.mpr (by rw [h])
  · next h =>
    refine Option.eq_none_iff_forall_ne_some.mpr fun name' he => h ?_
    have hcut : Text.cut? '.' (old ++ "." ++ name') = some (old, name') := cut?_owner hold
    rw [← Text.after?_eq_some_iff.mp he, cut?_owner ho] at hcut
    exact (Prod.mk.inj (Option.some.inj hcut)).1

theorem respellKey_of_not_mem (hp : '.' ∉ key.toList) :
    respellKey old new key = if key = old then new else key := by
  rw [respellKey, after?_of_not_mem hp]

theorem respellKey_owner (hold : '.' ∉ old.toList) (ho : '.' ∉ owner.toList) :
    respellKey old new (owner ++ "." ++ name) = respellKey old new owner ++ "." ++ name := by
  have hne : owner ++ "." ++ name ≠ old := by
    rintro rfl
    simp at hold
  rw [respellKey, if_neg hne, after?_owner hold ho, respellKey_of_not_mem ho]
  by_cases h : owner = old
  · rw [if_pos h, if_pos h]
  · rw [if_neg h, if_neg h]

theorem respells_respellKey (hold : '.' ∉ old.toList)
    (hsame : Text.sameIgnoringCase old new = true) : Respells (respellKey old new) where
  foldCase_eq key hp := by
    rw [respellKey_of_not_mem hp]
    split
    · next h => rw [h, Text.sameIgnoringCase_iff.mp hsame]
    · rfl
  follows owner name ho := respellKey_owner hold ho

theorem respellKey_cases (old new key : String) :
    (key = old ∧ respellKey old new key = new) ∨
    (∃ name, key = old ++ "." ++ name ∧ respellKey old new key = new ++ "." ++ name) ∨
    respellKey old new key = key := by
  unfold respellKey
  split
  · next h => exact .inl ⟨h, rfl⟩
  · split
    · next h => exact .inr (.inl ⟨_, Text.after?_eq_some_iff.mp h, rfl⟩)
    · exact .inr (.inr rfl)

theorem respellKey_respellKey (hnew : '.' ∉ new.toList)
    (hkey : key ≠ new ∧ Text.after? (new ++ ".") key = none) :
    respellKey new old (respellKey old new key) = key := by
  rcases respellKey_cases old new key with ⟨rfl, he⟩ | ⟨name, rfl, he⟩ | he
  · rw [he, respellKey, if_pos rfl]
  · rw [he, respellKey_owner hnew hnew, respellKey_of_not_mem hnew, if_pos rfl]
  · rw [he, respellKey, if_neg hkey.1, hkey.2]

theorem respellKey_inj {key' : String} (hnew : '.' ∉ new.toList)
    (hkey : key ≠ new ∧ Text.after? (new ++ ".") key = none)
    (hkey' : key' ≠ new ∧ Text.after? (new ++ ".") key' = none)
    (h : respellKey old new key = respellKey old new key') : key = key' := by
  rw [← respellKey_respellKey hnew hkey, h, respellKey_respellKey hnew hkey']

namespace Properties

/-- `name` is neither a key nor the owner of a key. -/
def Unused (p : Properties) (name : String) : Prop :=
  ∀ key ∈ p.keys, key ≠ name ∧ Text.after? (name ++ ".") key = none

instance (p : Properties) (name : String) : Decidable (p.Unused name) :=
  inferInstanceAs (Decidable (∀ key ∈ p.keys, _))

/-- The entries with `old` respelled as `new`, each in its place. -/
def respell (p : Properties) (old new : String) : Properties :=
  .ofList (p.entries.map fun e => (respellKey old new e.1, e.2))

theorem Unused.owner_ne (h : p.Unused new) (hnew : '.' ∉ new.toList) (hy : y ∈ p.settings) :
    y.owner ≠ new := by
  obtain ⟨hm, ho⟩ := mem_settings.mp hy
  have hafter := (h y.key (List.mem_map_of_mem hm)).2
  rw [Setting.key, after?_owner hnew ho] at hafter
  exact fun he => by simp [he] at hafter

theorem Unused.key_ne (h : p.Unused new) {x : Flag} (hx : x ∈ p.flags) : x.key ≠ new := by
  obtain ⟨-, -, value, hm, -⟩ := mem_flags.mp hx
  exact (h x.key (List.mem_map_of_mem hm)).1

theorem entries_respell (hnew : '.' ∉ new.toList) (h : p.Unused new) :
    (p.respell old new).entries = p.entries.map fun e => (respellKey old new e.1, e.2) := by
  apply entries_ofList_of_nodup
  have hkeys : (p.entries.map fun e => (respellKey old new e.1, e.2)).map Prod.fst =
      p.keys.map (respellKey old new) := by simp [keys]
  rw [hkeys]
  exact p.nodup_keys.map_on fun a ha b hb => respellKey_inj hnew (h a ha) (h b hb)

theorem respelled_respell (hold : '.' ∉ old.toList) (hsame : Text.sameIgnoringCase old new = true)
    (h : p.Unused new) : Respelled (respellKey old new) p (p.respell old new) := by
  have hnew : '.' ∉ new.toList := by
    rwa [← Text.point_mem_iff_of_foldCase_eq (Text.sameIgnoringCase_iff.mp hsame)]
  refine ⟨respells_respellKey hold hsame, entries_respell hnew h, fun x hx y hy => ?_⟩
  exact respellKey_inj hnew ⟨h.owner_ne hnew hy, after?_of_not_mem (mem_settings.mp hy).2⟩
    ⟨h.key_ne hx, after?_of_not_mem (mem_flags.mp hx).1⟩

/-- Respelling a key, and with it the owners that are spelled like it, has no effect if the new
spelling is not used before. The entries stay in place, the same selection is compiled, and the
issues have the same kinds and severities, in the same order, at the new keys. -/
theorem compile_respell (hold : '.' ∉ old.toList) (hsame : Text.sameIgnoringCase old new = true)
    (h : p.Unused new) :
    (p.respell old new).entries = (p.entries.map fun e => (respellKey old new e.1, e.2)) ∧
    (p.respell old new).compile = p.compile ∧
    ((Lint.issues (p.respell old new)).map fun i => (i.kind, i.severity)) =
      ((Lint.issues p).map fun i => (i.kind, i.severity)) ∧
    (Lint.issues (p.respell old new)).map Lint.Issue.location =
      (Lint.issues p).map fun i => respellKey old new i.location := by
  have hq := respelled_respell hold hsame h
  have hissues : Lint.issues (p.respell old new) =
      (Lint.findings p).map fun f => (f.respell (respellKey old new)).issue := by
    rw [Lint.issues, hq.findings_eq, List.map_map]
    rfl
  refine ⟨hq.entries_eq, hq.compile_eq, ?_, ?_⟩
  · rw [hissues, Lint.issues, List.map_map, List.map_map]
    exact List.map_congr_left fun f _ => Prod.ext (f.kind_respell _) (f.severity_respell _)
  · rw [hissues, Lint.issues, List.map_map, List.map_map]
    exact List.map_congr_left fun f _ => f.location_respell _

theorem compile_respell_of_other_spellings :
    let p := Properties.ofList
      [("Builder.a.b", "x,y"), ("builder", "TRUE"), ("Builder", "true"), ("builder.a", "\x7b"),
        ("Builder.", "1"), ("BuilderX.c", "2"), ("ToString.d", "3"), ("Data", "maybe")]
    let q := Properties.ofList
      [("BUILDER.a.b", "x,y"), ("builder", "TRUE"), ("BUILDER", "true"), ("builder.a", "\x7b"),
        ("BUILDER.", "1"), ("BuilderX.c", "2"), ("ToString.d", "3"), ("Data", "maybe")]
    q.compile = p.compile ∧
      ((Lint.issues q).map fun i => (i.kind, i.severity)) =
        [("unbalanced_braces", .error), ("orphan_option", .info), ("orphan_option", .info),
          ("default_feature_flag", .info), ("non_boolean_flag", .warning)] := by
  intro p q
  obtain ⟨hentries, hcompile, hissues, -⟩ :=
    @compile_respell p "Builder" "BUILDER" (by decide) (by decide) (by decide)
  have hq : p.respell "Builder" "BUILDER" = q := ext_entries (hentries.trans (by decide))
  rw [hq] at hcompile hissues
  exact ⟨hcompile, hissues.trans (by decide)⟩

end Properties

end

end ClassAnnotator

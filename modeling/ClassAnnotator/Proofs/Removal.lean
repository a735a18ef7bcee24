import ClassAnnotator.Proofs.Ownership

/-! # Removing entries

An entry that is reported as unknown, not boolean or an orphan can be removed without any change
to the compiled selection, alone or with others. Flags of the default feature can only change
options, and every setting that is no orphan changes them.
-/

namespace ClassAnnotator

/-- The kinds of findings about entries that have no effect at all. -/
def Lint.ignoredKinds : List String := ["unknown_feature", "non_boolean_flag", "orphan_option"]

variable {flags : List Flag} {settings settings' : List Setting} {f : Feature} {x : Flag}
  {y : Setting} {kind key : String} {dropped : List String}

theorem described_congr (h : ∀ x ∈ flags,
      settings.filter (·.owner = x.key) = settings'.filter (·.owner = x.key)) :
    described flags settings = described flags settings' := by
  have hcollected : collected settings flags = collected settings' flags := by
    funext f
    refine List.flatMap_congr fun x hx => ?_
    rw [h x (List.mem_of_mem_filter hx)]
  rw [described, described, hcollected]

namespace Properties

variable {p : Properties}

/-- The entries whose keys are not dropped, in their order. -/
def without (p : Properties) (dropped : List String) : Properties :=
  ⟨p.entries.filter (·.1 ∉ dropped), p.nodup_keys.sublist (List.filter_sublist.map _)⟩

theorem filterMap_without {γ : Type*} {g : String × String → Option γ} {k : γ → String}
    (h : ∀ e a, g e = some a → k a = e.1) :
    (p.without dropped).entries.filterMap g =
      (p.entries.filterMap g).filter (k · ∉ dropped) := by
  rw [without, List.filterMap_filter, List.filter_filterMap]
  refine List.filterMap_congr fun e _ => ?_
  cases hg : g e with
  | none => simp
  | some a => by_cases hd : e.1 ∈ dropped <;> simp [Option.filter_some, h e a hg, hd]

theorem flags_without : (p.without dropped).flags = p.flags.filter (·.key ∉ dropped) :=
  filterMap_without fun _ _ h => (flag?_eq_some_iff.mp h).1.symm

theorem settings_without :
    (p.without dropped).settings = p.settings.filter (·.key ∉ dropped) :=
  filterMap_without fun _ _ h => by rw [(setting?_eq_some_iff.mp h).1]

theorem flag_not_ignored (hx : x ∈ p.flags) (hk : kind ∈ Lint.ignoredKinds) :
    x.key ∉ Lint.locations kind p := by
  intro h
  obtain ⟨hp, hl, value, hv, ht⟩ := mem_flags.mp hx
  have hr := (Lint.mem_locations_iff_reported hv).mp h
  simp only [Lint.ignoredKinds, List.mem_cons, List.not_mem_nil, or_false] at hk
  rcases hk with rfl | rfl | rfl
  · simp [(Lint.reported_unknownFeature hp).mp hr] at hl
  · simp [((Lint.reported_nonBooleanFlag hp).mp hr).2.1] at ht
  · simp [Lint.not_reported_orphanOption (e := (x.key, value)) hp] at hr

theorem setting_not_ignored (hy : y ∈ ownedSettings p.flags p.settings)
    (hk : kind ∈ Lint.ignoredKinds) : y.key ∉ Lint.locations kind p := by
  intro h
  obtain ⟨hy, ho⟩ := List.mem_filter.mp hy
  obtain ⟨hm, hp⟩ := mem_settings.mp hy
  have hs : setting? (y.key, y.value) = some y := setting?_eq_some_iff.mpr ⟨rfl, hp⟩
  have hr := (Lint.mem_locations_iff_reported hm).mp h
  rcases Lint.reported_setting_cases hs hr with rfl | rfl
  · exact (Lint.key_mem_locations_orphanOption hy).mp h (of_decide_eq_true ho)
  · simp [Lint.ignoredKinds] at hk

theorem compile_without_eq
    (h : ∀ key ∈ dropped, ∃ kind ∈ Lint.ignoredKinds, key ∈ Lint.locations kind p) :
    (p.without dropped).compile = p.compile := by
  have hflags : p.flags.filter (·.key ∉ dropped) = p.flags := by
    refine List.filter_eq_self.mpr fun x hx => decide_eq_true fun hd => ?_
    obtain ⟨kind, hk, hl⟩ := h x.key hd
    exact flag_not_ignored hx hk hl
  rw [compile_eq_described, compile_eq_described, flags_without, settings_without, hflags]
  refine described_congr fun x hx => ?_
  rw [List.filter_filter]
  refine List.filter_congr fun y hy => ?_
  by_cases ho : y.owner = x.key
  · have hy : y ∈ ownedSettings p.flags p.settings :=
      List.mem_filter.mpr ⟨hy, decide_eq_true (List.mem_map.mpr ⟨x, hx, ho.symm⟩)⟩
    have hd : y.key ∉ dropped := by
      intro hd
      obtain ⟨kind, hk, hl⟩ := h y.key hd
      exact setting_not_ignored hy hk hl
    simp [ho, hd]
  · simp [ho]

end Properties

end ClassAnnotator

import ClassAnnotator.Proofs.Findings

/-! # What compiling logs

Compiling logs each flag that turns nothing on, in the order of the entries, and then a summary. The
log and the findings of the linter classify flags apart from each other. They agree: a key is logged
as unknown when the linter reports it as unknown, and a flag is logged as disabled with a value that
is not `false` when the linter reports that it is not boolean.
-/

namespace ClassAnnotator

def Log.Event.text? (e : Log.Event) (name : String) : Option String :=
  match Association.get? name e.fields with
  | some (.text s) => some s
  | _ => none

/-- The event has a value that is not `false`, in any case. -/
def Log.Event.valueNotFalse (e : Log.Event) : Bool :=
  (e.text? "value").any fun value => !Text.sameIgnoringCase value "false"

theorem map_filterMap_eq {α β γ : Type*} {g : α → Option β} {h : β → γ} {r : α → Bool} {k : α → γ}
    (hg : ∀ a, (g a).map h = if r a then some (k a) else none) (l : List α) :
    (l.filterMap g).map h = (l.filter r).map k := by
  rw [List.map_filterMap, ← List.filterMap_eq_map, List.filterMap_filter]
  exact List.filterMap_congr fun a _ => hg a

namespace Lint

variable {p : Properties} {e : String × String}

theorem reported_unknownFeature_iff : reported p "unknown_feature" e = true ↔
    '.' ∉ e.1.toList ∧ Feature.lookup e.1 = none := by
  by_cases hp : '.' ∈ e.1.toList
  · obtain ⟨y, hy⟩ := Properties.exists_setting? hp
    simp only [hp, not_true_eq_false, false_and, iff_false]
    exact fun hr => by simpa using reported_setting_cases hy hr
  · simp [reported_unknownFeature hp, hp]

theorem reported_nonBooleanFlag_iff : reported p "non_boolean_flag" e = true ↔
    '.' ∉ e.1.toList ∧ (Feature.lookup e.1).isSome = true ∧
      Text.sameIgnoringCase e.2 "true" = false ∧ Text.sameIgnoringCase e.2 "false" = false := by
  by_cases hp : '.' ∈ e.1.toList
  · obtain ⟨y, hy⟩ := Properties.exists_setting? hp
    simp only [hp, not_true_eq_false, false_and, iff_false]
    exact fun hr => by simpa using reported_setting_cases hy hr
  · simp [reported_nonBooleanFlag hp, hp]

end Lint

namespace Properties

variable {p : Properties}

def flagEvent (message key : String) (more : List (String × Log.FieldValue)) : Log.Event :=
  ⟨.debug, compileTarget, message, ("key", .text key) :: more⟩

@[simp] theorem level_flagEvent (message key : String) (more : List (String × Log.FieldValue)) :
    (flagEvent message key more).level = .debug := rfl

@[simp] theorem message_flagEvent (message key : String) (more : List (String × Log.FieldValue)) :
    (flagEvent message key more).message = message := rfl

@[simp] theorem text?_flagEvent (message key : String) (more : List (String × Log.FieldValue)) :
    (flagEvent message key more).text? "key" = some key := rfl

@[simp] theorem valueNotFalse_flagEvent (message key value : String) :
    (flagEvent message key [("value", .text value)]).valueNotFalse =
      !Text.sameIgnoringCase value "false" := rfl

theorem entryEvent?_cases (e : String × String) :
    ('.' ∈ e.1.toList ∧ entryEvent? e = none) ∨
    ('.' ∉ e.1.toList ∧ Feature.lookup e.1 = none ∧
      entryEvent? e = some (flagEvent "Ignoring unknown feature key" e.1 [])) ∨
    ∃ f, '.' ∉ e.1.toList ∧ Feature.lookup e.1 = some f ∧
      ((Text.sameIgnoringCase e.2 "true" = true ∧ entryEvent? e = none) ∨
      (Text.sameIgnoringCase e.2 "true" = false ∧
        entryEvent? e = some (flagEvent "Feature disabled" e.1 [("value", .text e.2)]))) := by
  unfold entryEvent? EntryRole.of EntryRole.isTrue
  by_cases hp : '.' ∈ e.1.toList
  · exact .inl (by simp [hp])
  · cases Feature.lookup e.1 with
    | none => exact .inr (.inl (by simp [hp, flagEvent]))
    | some f =>
      refine .inr (.inr ⟨f, ?_⟩)
      cases Text.sameIgnoringCase e.2 "true" <;> simp [hp, flagEvent]

theorem entryEvent?_silent (e : String × String) :
    (entryEvent? e).map (fun event => (event.level, event.text? "key")) =
      if '.' ∉ e.1.toList ∧ flag? e = none then some (.debug, some e.1) else none := by
  unfold flag?
  obtain ⟨hp, he⟩ | ⟨hp, hf, he⟩ | ⟨f, hp, hf, ⟨ht, he⟩ | ⟨ht, he⟩⟩ := entryEvent?_cases e
  · simp [he, hp]
  · simp [he, hp, hf]
  · simp [he, hp, hf, ht]
  · simp [he, hp, ht]

theorem entryEvent?_unknown (p : Properties) (e : String × String) :
    ((entryEvent? e).filter (·.message = "Ignoring unknown feature key")).map (·.text? "key") =
      if Lint.reported p "unknown_feature" e then some (some e.1) else none := by
  simp only [Lint.reported_unknownFeature_iff]
  obtain ⟨hp, he⟩ | ⟨hp, hf, he⟩ | ⟨f, hp, hf, ⟨ht, he⟩ | ⟨ht, he⟩⟩ := entryEvent?_cases e
  · simp [he, hp]
  · simp [he, hp, hf]
  · simp [he, hf]
  · simp [he, hf]

theorem entryEvent?_disabled (p : Properties) (e : String × String) :
    ((entryEvent? e).filter fun event =>
      event.message = "Feature disabled" && event.valueNotFalse).map (·.text? "key") =
      if Lint.reported p "non_boolean_flag" e then some (some e.1) else none := by
  simp only [Lint.reported_nonBooleanFlag_iff]
  obtain ⟨hp, he⟩ | ⟨hp, hf, he⟩ | ⟨f, hp, hf, ⟨ht, he⟩ | ⟨ht, he⟩⟩ := entryEvent?_cases e
  · simp [he, hp]
  · simp [he, hf]
  · simp [he, ht]
  · cases hv : Text.sameIgnoringCase e.2 "false" <;> simp [he, hp, hf, ht, hv]

/-- The events of a sort are about the flags that are reported for a kind, if this holds entry by
entry and the summary is not one of them. -/
theorem map_filter_compileEvents {q : Log.Event → Bool} {kind : String}
    (hq : ∀ event ∈ p.compileEvents.getLast?, q event = false)
    (he : ∀ e, ((entryEvent? e).filter q).map (·.text? "key") =
      if Lint.reported p kind e then some (some e.1) else none) :
    (p.compileEvents.filter q).map (·.text? "key") = (Lint.locations kind p).map some := by
  have hsummary : ∀ event, p.compileEvents.getLast? = some event → [event].filter q = [] :=
    fun event h => by simp [hq event h]
  rw [Lint.locations_eq, List.map_map, compileEvents, List.filter_append, List.filter_filterMap,
    List.map_append, map_filterMap_eq he, hsummary _ (by simp [compileEvents]), List.map_nil,
    List.append_nil]
  rfl

/-- Compiling logs each flag that turns nothing on, with its key and at the level of details, in the
order of the entries. Then it logs, once, the keys of the selected features and the number of
entries. The keys that are logged as unknown are those that the linter reports as unknown, in the
same order. The flags that are logged as disabled with a value that is not `false` are those that
the linter reports as not boolean. -/
theorem compileEvents_agree_with_issues (p : Properties) :
    ∃ details : List Log.Event,
      p.compileEvents = details ++ [⟨.info, compileTarget, "Compiled annotation selection",
        [("features", .texts p.compile.keys), ("properties_count", .count p.size)]⟩] ∧
      details.map (fun event => (event.level, event.text? "key")) =
        (p.entries.filter fun e => '.' ∉ e.1.toList ∧ flag? e = none).map
          (fun e => (.debug, some e.1)) ∧
      (p.compileEvents.filter (·.message = "Ignoring unknown feature key")).map (·.text? "key") =
        (Lint.locations "unknown_feature" p).map some ∧
      (p.compileEvents.filter fun event =>
          event.message = "Feature disabled" && event.valueNotFalse).map (·.text? "key") =
        (Lint.locations "non_boolean_flag" p).map some := by
  refine ⟨p.entries.filterMap entryEvent?, rfl, ?_, ?_, ?_⟩
  · refine map_filterMap_eq (fun e => ?_) p.entries
    simpa only [decide_eq_true_eq] using entryEvent?_silent e
  · exact map_filter_compileEvents (by simp [compileEvents]) (entryEvent?_unknown p)
  · exact map_filter_compileEvents (by simp [compileEvents]) (entryEvent?_disabled p)

end Properties

end ClassAnnotator

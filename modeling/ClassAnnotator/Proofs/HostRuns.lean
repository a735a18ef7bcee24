import ClassAnnotator.Plugin.Host
import ClassAnnotator.Proofs.Described

/-! # What a run of a host does

Each step names at most one element and adds texts behind those that the element has. What a model
class is given depends on the configuration that was set last before the step, and on nothing else
that happened.
-/

namespace ClassAnnotator

/-- The texts that a step adds to an element. -/
structure Contribution where
  imports : List String
  annotations : List String
  deriving DecidableEq, Repr

def Selection.contribution (s : Selection) : Contribution := ⟨s.imports, s.annotations⟩

namespace Element

def extend (e : Element) (cs : List Contribution) : Element :=
  { e with
    imports := e.imports ++ cs.flatMap Contribution.imports
    annotations := e.annotations ++ cs.flatMap Contribution.annotations }

variable {e : Element} {cs ds : List Contribution}

@[simp] theorem extend_nil : e.extend [] = e := by simp [extend]

theorem extend_append : e.extend (cs ++ ds) = (e.extend cs).extend ds := by simp [extend]

theorem extend_empty : e.extend [⟨[], []⟩] = e := by simp [extend]

theorem augment_eq_extend (s : Selection) : e.augment s = e.extend [s.contribution] := by
  rw [augment_eq]
  simp [extend, Selection.contribution]

end Element

namespace HostStep

/-- The element that a step names. -/
def target? : HostStep → Option (ElementKind × String)
  | modelClass _ name | accessor _ name => some (.modelClass, name)
  | client name => some (.clientInterface, name)
  | addImport kind name _ | annotate kind name _ | augment kind name _ | showElement kind name =>
    some (kind, name)
  | _ => none

/-- The configuration that a step sets. -/
def configures? : HostStep → Option Properties
  | reset => some .empty
  | useConfigured p | setProperties p => some p
  | _ => none

/-- The step changes the plugin or its configuration. -/
def reconfigures : HostStep → Bool
  | reset | usePassThrough | useConfigured _ | setProperties _ => true
  | _ => false

/-- What a step adds to the element that it names, when the plugin is configured with `p`. -/
def contribution (p : Properties) : HostStep → Contribution
  | modelClass _ _ => p.compile.contribution
  | client _ => ⟨[Plugin.mapperImport], [Plugin.mapperName]⟩
  | addImport _ _ text => ⟨[text], []⟩
  | annotate _ _ text => ⟨[], [text]⟩
  | augment _ _ q => q.compile.contribution
  | _ => ⟨[], []⟩

variable {s : HostStep}

theorem configures?_of_not_reconfigures (h : s.reconfigures = false) : s.configures? = none := by
  cases s <;> simp_all [reconfigures, configures?]

end HostStep

namespace Host

def after (h : Host) (steps : List HostStep) : Host := steps.foldl (fun h s => (h.step s).1) h

/-- The configuration that a run sets last, or else the empty one. -/
def configuration (steps : List HostStep) : Properties :=
  (steps.reverse.findSome? HostStep.configures?).getD .empty

/-- The steps of a run, each behind the steps before it. -/
def histories (earlier : List HostStep) : List HostStep → List (List HostStep × HostStep)
  | [] => []
  | s :: rest => (earlier, s) :: histories (earlier ++ [s]) rest

/-- What the steps that name `target` add to it, in the order of the run. -/
def contributions (target : ElementKind × String) (steps : List HostStep) : List Contribution :=
  ((histories [] steps).filter (·.2.target? = some target)).map fun (earlier, s) =>
    s.contribution (configuration earlier)

variable {h h' : Host} {s : HostStep} {steps l l' : List HostStep} {p : Properties}

theorem after_append (h : Host) (l l' : List HostStep) :
    h.after (l ++ l') = (h.after l).after l' := List.foldl_append

theorem after_concat (h : Host) (l : List HostStep) (s : HostStep) :
    h.after (l ++ [s]) = ((h.after l).step s).1 := after_append h l [s]

/-- The answers to a run go on where the host is after its first part. -/
theorem run_append (h : Host) (l l' : List HostStep) :
    h.run (l ++ l') = h.run l ++ (h.after l).run l' := by
  induction l generalizing h with
  | nil => rfl
  | cons s l ih => exact congrArg (_ :: ·) (ih _)

theorem configuration_concat (steps : List HostStep) (s : HostStep) :
    configuration (steps ++ [s]) = s.configures?.getD (configuration steps) := by
  rw [configuration, List.reverse_append, List.reverse_singleton, List.singleton_append,
    List.findSome?_cons]
  cases s.configures? <;> rfl

theorem histories_concat (earlier l : List HostStep) (s : HostStep) :
    histories earlier (l ++ [s]) = histories earlier l ++ [(earlier ++ l, s)] := by
  induction l generalizing earlier with
  | nil => simp [histories]
  | cons t l ih => simp [histories, ih]

theorem contributions_concat (target : ElementKind × String) (steps : List HostStep)
    (s : HostStep) : contributions target (steps ++ [s]) =
      contributions target steps ++
        if s.target? = some target then [s.contribution (configuration steps)] else [] := by
  rw [contributions, histories_concat, List.filter_append, List.map_append]
  by_cases h : s.target? = some target <;> simp [contributions, h]

theorem element_put (h : Host) (kind : ElementKind) (name : String) (e : Element)
    (k : ElementKind) (n : String) :
    (h.put kind name e).element k n = if (kind, name) = (k, n) then e else h.element k n := by
  rw [element, put, Association.get?_put]
  split <;> rfl

theorem element_put_extend (h : Host) (kind : ElementKind) (name : String)
    (cs : List Contribution) (k : ElementKind) (n : String) :
    (h.put kind name ((h.element kind name).extend cs)).element k n =
      (h.element k n).extend (if some (kind, name) = some (k, n) then cs else []) := by
  rw [element_put]
  by_cases ht : (kind, name) = (k, n)
  · obtain ⟨rfl, rfl⟩ := Prod.mk.inj ht
    rw [if_pos rfl, if_pos rfl]
  · rw [if_neg ht, if_neg (mt Option.some.inj ht), Element.extend_nil]

/-- A step extends the element that it names, and no other. -/
theorem element_step (hp : h.plugin = .annotating p.compile) (s : HostStep) (k : ElementKind)
    (n : String) :
    (h.step s).1.element k n =
      (h.element k n).extend (if s.target? = some (k, n) then [s.contribution p] else []) := by
  cases s with
  | modelClass which name =>
    rw [HostStep.target?, HostStep.contribution, ← element_put_extend, ← Element.augment_eq_extend]
    simp [step, hp, Plugin.modelClassGenerated]
  | client name =>
    rw [HostStep.target?, HostStep.contribution, ← element_put_extend]
    simp [step, hp, Plugin.clientGenerated, Element.extend, Element.addImport, Element.annotate]
  | addImport kind name text | annotate kind name text =>
    rw [HostStep.target?, HostStep.contribution, ← element_put_extend]
    simp [step, Element.extend, Element.addImport, Element.annotate]
  | augment kind name q =>
    rw [HostStep.target?, HostStep.contribution, ← element_put_extend, ← Element.augment_eq_extend]
    simp [step]
  | accessor which name | showElement kind name =>
    split
    · exact Element.extend_empty.symm
    · exact Element.extend_nil.symm
  | _ => exact Element.extend_nil.symm

theorem element_step_of_ne (h : Host) {k : ElementKind} {n : String}
    (ht : s.target? ≠ some (k, n)) : (h.step s).1.element k n = h.element k n := by
  have hput : ∀ kind name e, some (kind, name) ≠ some (k, n) →
      (h.put kind name e).element k n = h.element k n := by
    intro kind name e hn
    rw [element_put, if_neg (mt (congrArg some) hn)]
  cases s with
  | modelClass which name | client name => exact hput _ _ _ ht
  | addImport kind name text | annotate kind name text => exact hput _ _ _ ht
  | augment kind name q => exact hput _ _ _ ht
  | _ => rfl

theorem plugin_step (hp : h.plugin = .annotating p.compile) (hs : s ≠ .usePassThrough) :
    (h.step s).1.plugin = .annotating (s.configures?.getD p).compile := by
  cases s with
  | usePassThrough => exact absurd rfl hs
  | reset | useConfigured q => rfl
  | setProperties q => simp [step, hp, Plugin.setProperties, HostStep.configures?]
  | _ => exact hp

/-- The plugin is configured with what was set last, whatever was set before. -/
theorem plugin_after (h₀ : h.plugin = .unconfigured) (hs : .usePassThrough ∉ steps) :
    (h.after steps).plugin = .annotating (configuration steps).compile := by
  induction steps using List.reverseRecOn with
  | nil => exact h₀
  | append_singleton steps s ih =>
    obtain ⟨hsteps, hs⟩ := not_or.mp (List.mem_append.not.mp hs)
    rw [after_concat, configuration_concat]
    exact plugin_step (ih hsteps) (Ne.symm (mt List.mem_singleton.mpr hs))

theorem element_after (h₀ : h.plugin = .unconfigured) (hs : .usePassThrough ∉ steps)
    (k : ElementKind) (n : String) :
    (h.after steps).element k n = (h.element k n).extend (contributions (k, n) steps) := by
  induction steps using List.reverseRecOn with
  | nil => exact Element.extend_nil.symm
  | append_singleton steps s ih =>
    obtain ⟨hsteps, -⟩ := not_or.mp (List.mem_append.not.mp hs)
    rw [after_concat, element_step (plugin_after h₀ hsteps), ih hsteps, contributions_concat,
      Element.extend_append]

theorem configuration_append (hl : ∀ s ∈ l, s.reconfigures = false) :
    configuration (steps ++ l) = configuration steps := by
  induction l using List.reverseRecOn with
  | nil => rw [List.append_nil]
  | append_singleton l s ih =>
    obtain ⟨hl, hs⟩ := List.forall_mem_append.mp hl
    have hs := HostStep.configures?_of_not_reconfigures (hs s (List.mem_singleton_self s))
    rw [← List.append_assoc, configuration_concat, hs, Option.getD_none, ih hl]

theorem contributions_append (target : ElementKind × String) (steps : List HostStep)
    (hl : ∀ s ∈ l, s.reconfigures = false) :
    contributions target (steps ++ l) = contributions target steps ++
      (l.filter (·.target? = some target)).map (·.contribution (configuration steps)) := by
  induction l using List.reverseRecOn with
  | nil => simp
  | append_singleton l s ih =>
    obtain ⟨hl, -⟩ := List.forall_mem_append.mp hl
    rw [← List.append_assoc, contributions_concat, configuration_append hl, ih hl]
    by_cases ht : s.target? = some target <;> simp [ht]

/-- Hosts with the same plugin and the same elements. -/
def Alike (h h' : Host) : Prop :=
  h.plugin = h'.plugin ∧ ∀ kind name, h.element kind name = h'.element kind name

theorem Alike.put (hh : h.Alike h') (kind : ElementKind) (name : String) (e : Element) :
    (h.put kind name e).Alike (h'.put kind name e) := by
  refine ⟨hh.1, fun k n => ?_⟩
  rw [element_put, element_put, hh.2]

theorem Alike.step (hh : h.Alike h') (s : HostStep) :
    (h.step s).1.Alike (h'.step s).1 ∧ (h.step s).2 = (h'.step s).2 := by
  have hp := hh.1
  have he := hh.2
  cases s with
  | modelClass which name | client name =>
    simp only [Host.step, hp, he]
    exact ⟨hh.put _ _ _, trivial⟩
  | addImport kind name text | annotate kind name text =>
    simp only [Host.step, he]
    exact ⟨hh.put _ _ _, trivial⟩
  | augment kind name q =>
    simp only [Host.step, he]
    exact ⟨hh.put _ _ _, trivial⟩
  | reset | usePassThrough | useConfigured q => exact ⟨⟨rfl, he⟩, rfl⟩
  | setProperties q => exact ⟨⟨congrArg (Plugin.setProperties · q) hp, he⟩, rfl⟩
  | validate warnings => exact ⟨hh, rfl⟩
  | showSelection => exact ⟨hh, congrArg (HostAnswer.selection ∘ Plugin.selection?) hp⟩
  | accessor which name | showElement kind name =>
    simp only [Host.step, hp, he]
    exact ⟨hh, trivial⟩

theorem Alike.run (hh : h.Alike h') (steps : List HostStep) : h.run steps = h'.run steps := by
  induction steps generalizing h h' with
  | nil => rfl
  | cons s rest ih =>
    obtain ⟨hnext, hanswer⟩ := hh.step s
    change (h.step s).2 :: (h.step s).1.run rest = (h'.step s).2 :: (h'.step s).1.run rest
    rw [hanswer, ih hnext]

theorem not_mem_of_not_reconfigures (hl : ∀ s ∈ l, s.reconfigures = false) :
    .usePassThrough ∉ l := fun hm => Bool.noConfusion (hl _ hm)

/-- Without a reconfiguration among them, steps can be reordered as long as those that name one
element stay in order. -/
theorem alike_of_filter_eq (h₀ : h.plugin = .unconfigured) (hs : .usePassThrough ∉ steps)
    (hl : ∀ s ∈ l, s.reconfigures = false) (hl' : ∀ s ∈ l', s.reconfigures = false)
    (heq : ∀ target, l.filter (·.target? = some target) = l'.filter (·.target? = some target)) :
    (h.after (steps ++ l)).Alike (h.after (steps ++ l')) := by
  have hm : .usePassThrough ∉ steps ++ l := by simp [hs, not_mem_of_not_reconfigures hl]
  have hm' : .usePassThrough ∉ steps ++ l' := by simp [hs, not_mem_of_not_reconfigures hl']
  constructor
  · rw [plugin_after h₀ hm, plugin_after h₀ hm', configuration_append hl, configuration_append hl']
  · intro kind name
    rw [element_after h₀ hm, element_after h₀ hm', contributions_append _ _ hl,
      contributions_append _ _ hl', heq]

/-- Exchanging two steps keeps those in order that name one element, unless both do. -/
theorem filter_exchange {t : HostStep} (hne : s.target? ≠ t.target?)
    (target : ElementKind × String) :
    [s, t].filter (·.target? = some target) = [t, s].filter (·.target? = some target) := by
  by_cases hs : s.target? = some target
  · have ht : t.target? ≠ some target := fun ht => hne (hs.trans ht.symm)
    simp [List.filter_cons, ht]
  · simp [List.filter_cons, hs]

theorem after_replicate_setProperties (h : Host) (p : Properties) (n : ℕ) :
    h.after (List.replicate (n + 1) (.setProperties p)) = h.after [.setProperties p] := by
  induction n with
  | zero => rfl
  | succ n ih =>
    rw [List.replicate_succ', after_concat, ih]
    obtain ⟨plugin, elements⟩ := h
    cases plugin <;> rfl

/-- After a run of steps on an annotating plugin, every element has its name, and behind its imports
and annotations those that the steps add that name it, in their order and each under the
configuration that was set last before. A step changes no element that it does not name. A
configuration that is set repeatedly counts once. Steps between two reconfigurations can be
reordered as long as those on one element stay in order: whatever follows, no answer changes. -/
theorem elements_after_run (h₀ : h.plugin = .unconfigured) (hs : .usePassThrough ∉ steps) :
    (∀ kind name, (h.after steps).element kind name =
      { h.element kind name with
        imports := (h.element kind name).imports ++
          (contributions (kind, name) steps).flatMap Contribution.imports
        annotations := (h.element kind name).annotations ++
          (contributions (kind, name) steps).flatMap Contribution.annotations }) ∧
    (h.after steps).plugin = .annotating (configuration steps).compile ∧
    (∀ s kind name, s.target? ≠ some (kind, name) →
      (h.after (steps ++ [s])).element kind name = (h.after steps).element kind name) ∧
    (∀ p n, h.after (steps ++ List.replicate (n + 1) (.setProperties p)) =
      h.after (steps ++ [.setProperties p])) ∧
    ∀ l l' : List HostStep,
      (∀ s ∈ l, s.reconfigures = false) → (∀ s ∈ l', s.reconfigures = false) →
      (∀ target, l.filter (·.target? = some target) = l'.filter (·.target? = some target)) →
      ∀ rest, (h.after (steps ++ l)).run rest = (h.after (steps ++ l')).run rest := by
  refine ⟨element_after h₀ hs, plugin_after h₀ hs, fun s kind name ht => ?_, fun p n => ?_,
    fun l l' hl hl' heq rest => ?_⟩
  · rw [after_concat]
    exact element_step_of_ne _ ht
  · rw [after_append, after_append, after_replicate_setProperties]
  · exact (alike_of_filter_eq h₀ hs hl hl' heq).run rest

theorem elements_after_run_of_repeated_configuration :
    let p := Properties.ofList [("builder", "true"), ("builder.toBuilder", "true")]
    let steps : List HostStep :=
      [.modelClass .primaryKey "User", .setProperties p, .setProperties p,
        .accessor .getter "User", .client "User", .addImport .modelClass "User" "a.B",
        .modelClass .baseRecord "User"]
    (∃ answers, initial.run (steps ++ [.showElement .modelClass "User"]) =
      answers ++ [.element ⟨.modelClass, "User", ["lombok.Data", "a.B", "lombok.Data",
        "lombok.Builder"], ["@Data", "@Data", "@Builder(toBuilder=true)"]⟩]) ∧
    ∀ rest, (initial.after (steps ++ [.client "Log", .modelClass .baseRecord "Log"])).run rest =
      (initial.after (steps ++ [.modelClass .baseRecord "Log", .client "Log"])).run rest := by
  intro p steps
  obtain ⟨he, -, -, -, hreorder⟩ := @elements_after_run initial steps rfl (by simp [steps])
  constructor
  · have hcontributions : contributions (.modelClass, "User") steps =
        [Selection.initial.contribution, ⟨[], []⟩, ⟨["a.B"], []⟩, p.compile.contribution] := rfl
    refine ⟨_, (run_append ..).trans (congrArg (_ ++ [HostAnswer.element ·]) ?_)⟩
    rw [he, hcontributions, Properties.compile_eq_described]
    decide
  · exact hreorder _ _ (by decide) (by decide) (filter_exchange (by decide))

end Host

end ClassAnnotator

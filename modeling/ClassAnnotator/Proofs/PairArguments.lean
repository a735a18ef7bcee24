import ClassAnnotator.CommandLine.Arguments
import ClassAnnotator.Proofs.Except

/-! # Pairs on the command line

A text is accepted as a pair when it is a key, an equals sign and a value, where the key is not
empty and has no equals sign. Pairs can be given in place of a configuration file: whatever else
stands on the command line is read as before.
-/

namespace ClassAnnotator

def Command.mapSource (f : PropertySource → PropertySource) : Command → Command
  | render s => render (f s)
  | annotate s className mapper => annotate (f s) className mapper
  | lint s failOnError errorsOnly json => lint (f s) failOnError errorsOnly json
  | features json => features json

namespace CommandLine

def pairText (pair : String × String) : String := pair.1 ++ "=" ++ pair.2

def IsPairKey (key : String) : Prop := key ≠ "" ∧ '=' ∉ key.toList

instance (key : String) : Decidable (IsPairKey key) := inferInstanceAs (Decidable (_ ∧ _))

/-- An option with its value, in one argument. -/
def attached (o : OptionName) (value : String) : String := "--" ++ o.long ++ "=" ++ value

def configArgument (path : String) : String := attached .config path

def pairArgument (pair : String × String) : String := attached .set (pairText pair)

variable {s name path value : String} {pair : String × String} {pairs : List (String × String)}
  {verb : Verb} {o : OptionName} {options : List OptionName} {p q : Progress}

theorem readPair_eq_ok_iff : readPair s = .ok pair ↔ s = pairText pair ∧ IsPairKey pair.1 := by
  constructor
  · intro h
    unfold readPair at h
    split at h
    · cases h
    · next key value hc =>
      split at h
      · cases h
      · next hk =>
        obtain rfl := Except.ok.inj h
        obtain ⟨hs, he⟩ := Text.cut?_eq_some_iff.mp hc
        exact ⟨hs, by simpa using hk, he⟩
  · rintro ⟨rfl, hk, he⟩
    have hc : Text.cut? '=' (pairText pair) = some pair := Text.cut?_eq_some_iff.mpr ⟨rfl, he⟩
    simp [readPair, hc, hk]

theorem exists_readPair_iff :
    (∃ pair, readPair s = .ok pair) ↔ '=' ∈ s.toList ∧ s.toList.head? ≠ some '=' := by
  constructor
  · rintro ⟨⟨key, value⟩, h⟩
    obtain ⟨rfl, hk, he⟩ := readPair_eq_ok_iff.mp h
    obtain ⟨c, cs, hc⟩ := List.exists_cons_of_ne_nil (mt String.toList_eq_nil_iff.mp hk)
    simp only [hc, List.mem_cons, not_or] at he
    simp [pairText, hc, Ne.symm he.1]
  · rintro ⟨hm, hh⟩
    obtain ⟨a, b, hs, ha⟩ := List.eq_append_cons_of_mem hm
    refine ⟨(String.ofList a, String.ofList b), readPair_eq_ok_iff.mpr ⟨?_, ?_, by simpa using ha⟩⟩
    · exact String.toList_injective (by simp [pairText, hs])
    · intro hk
      simp [hs, String.ofList_eq_empty_iff.mp hk] at hh

theorem mapM_readPair (h : ∀ pair ∈ pairs, IsPairKey pair.1) :
    (pairs.map pairText).mapM readPair = .ok pairs := by
  induction pairs with
  | nil => rfl
  | cons pair pairs ih =>
    obtain ⟨hpair, hpairs⟩ := List.forall_mem_cons.mp h
    rw [List.map_cons, List.mapM_cons, readPair_eq_ok_iff.mpr ⟨rfl, hpair⟩, ih hpairs]
    rfl

namespace Progress

/-- What has been read, had pairs been given in place of the file. -/
def insteadOfFile (pairs : List (String × String)) (p : Progress) : Progress :=
  { p with
    seen := pairs.map (fun _ => .set) ++ p.seen.filter (· ≠ .config)
    config := none
    pairs := pairs ++ p.pairs }

/-- A step from a progress with a file keeps the file, and does the same had pairs been given in
its place. -/
def IgnoresFile (step : Progress → Except UsageError Progress) : Prop :=
  ∀ pairs p q, .config ∈ p.seen → step p = .ok q →
    .config ∈ q.seen ∧ q.config = p.config ∧
      step (p.insteadOfFile pairs) = .ok (q.insteadOfFile pairs)

theorem IgnoresFile.bind {f g : Progress → Except UsageError Progress} (hf : IgnoresFile f)
    (hg : IgnoresFile g) : IgnoresFile fun p => (f p).bind g := by
  intro pairs p r hp h
  obtain ⟨q, hq, hr⟩ := Except.bind_eq_ok_iff.mp h
  obtain ⟨hqs, hqc, hqf⟩ := hf pairs p q hp hq
  obtain ⟨hrs, hrc, hrf⟩ := hg pairs q r hqs hr
  exact ⟨hrs, hrc.trans hqc, Except.bind_eq_ok_iff.mpr ⟨_, hqf, hrf⟩⟩

theorem ignoresFile_error (e : UsageError) : IgnoresFile fun _ => .error e := by
  intro pairs p q _ h
  cases h

theorem ignoresFile_pure : IgnoresFile .ok := by
  rintro pairs p _ hp ⟨⟩
  exact ⟨hp, rfl, rfl⟩

theorem ignoresFile_pending (pending : Option (OptionName × Option String)) :
    IgnoresFile fun p => .ok { p with pending := pending } := by
  rintro pairs p _ hp ⟨⟩
  exact ⟨hp, rfl, rfl⟩

theorem mem_seen_insteadOfFile (ho : o ≠ .config) :
    (o ∈ (p.insteadOfFile pairs).seen && !o.repeats) = (o ∈ p.seen && !o.repeats) := by
  cases o <;> simp [insteadOfFile, OptionName.repeats] at ho ⊢

theorem ignoresFile_apply (o : OptionName) (value : String) : IgnoresFile (·.apply o value) := by
  intro pairs p q hp h
  have ho : o ≠ .config := by
    rintro rfl
    simp [apply, hp, OptionName.repeats] at h
  dsimp only at h ⊢
  unfold apply at h ⊢
  rw [mem_seen_insteadOfFile ho]
  split at h
  · cases h
  · next hseen =>
    rw [if_neg hseen]
    cases o with
    | config => exact absurd rfl ho
    | help => cases h
    | set =>
      dsimp only at h ⊢
      split at h
      · cases h
      · obtain rfl := Except.ok.inj h
        simp [insteadOfFile, hp]
    | className | mapper | failOnError | errorsOnly | json =>
      obtain rfl := Except.ok.inj h
      simp [insteadOfFile, hp]

theorem ignoresFile_settle : IgnoresFile settle := by
  intro pairs p q hp h
  have hpending : (p.insteadOfFile pairs).pending = p.pending := rfl
  unfold settle at h ⊢
  rw [hpending]
  split at h
  · exact ignoresFile_pure pairs p q hp h
  · cases h
  · next o value _ => exact ignoresFile_apply o value pairs { p with pending := none } q hp h

theorem ignoresFile_takeOption (o : OptionName) (value? : Option String) :
    IgnoresFile (·.takeOption o value?) := by
  unfold takeOption
  cases o.takesValue with
  | true =>
    cases value? with
    | none => exact ignoresFile_settle.bind (ignoresFile_pending _)
    | some value => exact ignoresFile_settle.bind (ignoresFile_apply o value)
  | false =>
    cases value? with
    | none => exact ignoresFile_settle.bind (ignoresFile_apply o "")
    | some value => exact ignoresFile_error _

theorem ignoresFile_takeShort (options : List OptionName) (cs : List Char) :
    IgnoresFile (takeShort options · cs) := by
  induction cs with
  | nil => exact ignoresFile_pure
  | cons c cs ih =>
    unfold takeShort
    cases options.find? (·.short? == some c) with
    | none => exact ignoresFile_error _
    | some o =>
      dsimp only
      cases o.takesValue with
      | true => exact ignoresFile_takeOption o _
      | false => exact (ignoresFile_takeOption o none).bind ih

theorem ignoresFile_takeLong (options : List OptionName) (text : List Char) :
    IgnoresFile (takeLong options · text) := by
  unfold takeLong
  cases Text.splitFirst? '=' text with
  | none =>
    dsimp only
    cases options.find? (·.long == String.ofList text) with
    | none => exact ignoresFile_error _
    | some o => exact ignoresFile_takeOption o none
  | some cut =>
    dsimp only
    cases options.find? (·.long == String.ofList cut.1) with
    | none => exact ignoresFile_error _
    | some o => exact ignoresFile_takeOption o _

theorem ignoresFile_takeWord (arg : String) : IgnoresFile (·.takeWord arg) := by
  intro pairs p q hp h
  have hpending : (p.insteadOfFile pairs).pending = p.pending := rfl
  dsimp only at h ⊢
  unfold takeWord at h ⊢
  rw [hpending]
  split at h
  · next o _ => exact ignoresFile_pending (some (o, some arg)) pairs p q hp h
  · cases h

theorem ignoresFile_take (options : List OptionName) (arg : String) :
    IgnoresFile (take options · arg) := by
  intro pairs p q hp h
  have hclosed : (p.insteadOfFile pairs).closed = p.closed := rfl
  dsimp only at h ⊢
  unfold take at h ⊢
  rw [hclosed]
  split at h
  · cases h
  · next hc =>
    rw [if_neg hc]
    split at h
    · obtain rfl := Except.ok.inj h
      exact ⟨hp, rfl, rfl⟩
    · exact ignoresFile_takeLong options _ pairs p q hp h
    · exact ignoresFile_takeShort options _ pairs p q hp h
    · exact ignoresFile_takeWord arg pairs p q hp h

theorem ignoresFile_foldlM (options : List OptionName) (args : List String) :
    IgnoresFile fun p => args.foldlM (take options) p := by
  induction args with
  | nil => exact ignoresFile_pure
  | cons arg args ih => exact (ignoresFile_take options arg).bind ih

theorem command_insteadOfFile (pairs : List (String × String)) (p : Progress) (verb : Verb) :
    (p.insteadOfFile pairs).command verb =
      (p.command verb).map (.mapSource fun s => ⟨none, pairs ++ s.pairs⟩) := by
  cases verb with
  | annotate =>
    cases hc : p.className <;>
      simp [command, insteadOfFile, hc, Except.map, Command.mapSource, source]
  | render | lint | features => simp [command, insteadOfFile, Except.map, Command.mapSource, source]

theorem mapSource_of_command {c : Command} (h : p.command verb = .ok c) :
    c.mapSource (fun s => ⟨p.config, s.pairs⟩) = c := by
  cases verb with
  | annotate =>
    simp only [command] at h
    split at h
    · cases h
    · obtain rfl := Except.ok.inj h
      rfl
  | render | lint | features =>
    obtain rfl := Except.ok.inj h
    rfl

theorem find?_long (ho : o ∈ verb.options) : verb.options.find? (·.long == o.long) = some o := by
  cases verb <;> cases o <;> revert ho <;> decide

theorem take_attached (hc : p.closed = false) :
    p.take options (attached o value) =
      match options.find? (·.long == o.long) with
      | none => .error .unknownArgument
      | some o => p.takeOption o (some value) := by
  obtain ⟨d, ds, hd⟩ : ∃ d ds, o.long.toList ++ '=' :: value.toList = d :: ds :=
    List.exists_cons_of_ne_nil (by simp)
  have hcut : Text.splitFirst? '=' (d :: ds) = some (o.long.toList, value.toList) :=
    Text.splitFirst?_eq_some_iff.mpr ⟨hd.symm, by cases o <;> decide⟩
  have harg : (attached o value).toList = '-' :: '-' :: d :: ds := by
    rw [← hd]
    simp [attached]
  unfold take
  rw [hc, harg]
  change p.takeLong options (d :: ds) = _
  cases hfind : options.find? (·.long == o.long) <;>
    simp only [takeLong, hcut, String.ofList_toList, hfind]

theorem take_attached_of_mem (ho : o ∈ verb.options) (hv : o.takesValue = true)
    (hw : p.pending = none) (hc : p.closed = false) :
    p.take verb.options (attached o value) = p.apply o value := by
  rw [take_attached hc, find?_long ho]
  simp [takeOption, hv, settle, hw, Except.bind]

def withPairs (p : Progress) (pairs : List (String × String)) : Progress :=
  { p with seen := p.seen ++ pairs.map fun _ => .set, pairs := p.pairs ++ pairs }

theorem withPairs_withPairs (p : Progress) (pairs more : List (String × String)) :
    (p.withPairs pairs).withPairs more = p.withPairs (pairs ++ more) := by
  simp [withPairs]

theorem apply_pairText (h : IsPairKey pair.1) (p : Progress) :
    p.apply .set (pairText pair) = .ok (p.withPairs [pair]) := by
  simp [apply, OptionName.repeats, readPair_eq_ok_iff.mpr ⟨rfl, h⟩, withPairs]

theorem foldlM_pairArguments (ho : .set ∈ verb.options) (h : ∀ pair ∈ pairs, IsPairKey pair.1)
    (hw : p.pending = none) (hc : p.closed = false) :
    (pairs.map pairArgument).foldlM (take verb.options) p = .ok (p.withPairs pairs) := by
  induction pairs generalizing p with
  | nil => simp [withPairs, pure, Except.pure]
  | cons pair pairs ih =>
    obtain ⟨hpair, hpairs⟩ := List.forall_mem_cons.mp h
    rw [List.map_cons, List.foldlM_cons, pairArgument, take_attached_of_mem ho rfl hw hc,
      apply_pairText hpair]
    have hrest := @ih (p.withPairs [pair]) hpairs hw hc
    rwa [withPairs_withPairs] at hrest

def withFile (path : String) : Progress := { start with seen := [.config], config := some path }

theorem take_configArgument (h : start.take verb.options (configArgument path) = .ok p) :
    .set ∈ verb.options ∧ p = withFile path := by
  have ho : verb = .features ∨ .config ∈ verb.options ∧ .set ∈ verb.options := by
    cases verb <;> decide
  rcases ho with rfl | ⟨hc, hs⟩
  · rw [configArgument, take_attached rfl] at h
    cases h
  · rw [configArgument, take_attached_of_mem hc rfl rfl rfl] at h
    simp only [apply] at h
    split at h
    · cases h
    · split at h
      · cases h
      · exact ⟨hs, (Except.ok.inj h).symm⟩

theorem withFile_insteadOfFile (path : String) (pairs : List (String × String)) :
    (withFile path).insteadOfFile pairs = start.withPairs pairs := by
  simp [withFile, insteadOfFile, start, withPairs]

theorem ignoresFile_rest (verb : Verb) (args : List String) :
    IgnoresFile fun p => (args.foldlM (take verb.options) p).bind settle :=
  (ignoresFile_foldlM verb.options args).bind ignoresFile_settle

end Progress

variable {args : List String} {c : Command}

theorem readVerb_eq (verb : Verb) (args : List String) :
    readVerb verb args =
      ((args.foldlM (Progress.take verb.options) .start).bind Progress.settle).bind
        (·.command verb) := by
  unfold readVerb
  cases args.foldlM (Progress.take verb.options) Progress.start <;> rfl

/-- Pairs in place of a file change the source of a command and nothing else. -/
theorem readVerb_pairArguments (hpairs : ∀ pair ∈ pairs, IsPairKey pair.1)
    (h : readVerb verb (configArgument path :: args) = .ok c) :
    c.mapSource (fun s => ⟨some path, s.pairs⟩) = c ∧
      readVerb verb (pairs.map pairArgument ++ args) =
        .ok (c.mapSource fun s => ⟨none, pairs ++ s.pairs⟩) := by
  rw [readVerb_eq] at h ⊢
  obtain ⟨r, hr, hcommand⟩ := Except.bind_eq_ok_iff.mp h
  obtain ⟨q, hq, hr⟩ := Except.bind_eq_ok_iff.mp hr
  rw [List.foldlM_cons] at hq
  obtain ⟨p, hp, hq⟩ := Except.bind_eq_ok_iff.mp hq
  obtain ⟨hset, rfl⟩ := Progress.take_configArgument hp
  have hrest : ((args.foldlM (Progress.take verb.options) (.withFile path)).bind
      Progress.settle) = .ok r := Except.bind_eq_ok_iff.mpr ⟨q, hq, hr⟩
  obtain ⟨-, hconfig, hinstead⟩ :=
    Progress.ignoresFile_rest verb args pairs _ r (by simp [Progress.withFile]) hrest
  constructor
  · have hs := Progress.mapSource_of_command hcommand
    rwa [hconfig] at hs
  · have hfront : (pairs.map pairArgument).foldlM (Progress.take verb.options) .start = _ :=
      Progress.foldlM_pairArguments hset hpairs rfl rfl
    rw [Progress.withFile_insteadOfFile] at hinstead
    rw [List.foldlM_append, hfront]
    refine Except.bind_eq_ok_iff.mpr ⟨_, hinstead, ?_⟩
    rw [Progress.command_insteadOfFile, hcommand]
    rfl

theorem read_pairArguments (hpairs : ∀ pair ∈ pairs, IsPairKey pair.1)
    (h : read (name :: configArgument path :: args) = .ok c) :
    c.mapSource (fun s => ⟨some path, s.pairs⟩) = c ∧
      read (name :: (pairs.map pairArgument ++ args)) =
        .ok (c.mapSource fun s => ⟨none, pairs ++ s.pairs⟩) := by
  cases hv : Verb.ofName? name with
  | some verb =>
    simp only [read, hv] at h ⊢
    exact readVerb_pairArguments hpairs h
  | none =>
    simp only [read, hv] at h
    split at h
    · cases h
    · split at h <;> cases h

end CommandLine

end ClassAnnotator

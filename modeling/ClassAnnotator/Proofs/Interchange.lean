import ClassAnnotator.Proofs.Insertion
import ClassAnnotator.Proofs.PairArguments

/-! # Files and pairs

A configuration file stands for the pairs that its document flattens to. Loading the file and
further pairs is the same as loading all of these pairs without a file, and commands print the same
in both cases.
-/

namespace ClassAnnotator

open CommandLine

variable {read read' : String → Option String} {path contents : String} {document : Document}
  {p : Properties}

namespace PropertySource

theorem load_pairs (read : String → Option String) (pairs : List (String × String)) :
    (PropertySource.mk none pairs).load read = .ok (.ofList pairs) := rfl

theorem load_file (hread : read path = some contents)
    (hdocument : (Format.ofPath path).read? contents = some document)
    (hflatten : document.flatten = .ok p) (pairs : List (String × String)) :
    (PropertySource.mk (some path) pairs).load read = .ok (.ofList (p.entries ++ pairs)) := by
  have hload : Properties.load read path = .ok p := by
    simp only [Properties.load, hread, hdocument, hflatten, Except.mapError]
  simp only [load, loadFile, hload, Except.map, p.insertAll_eq_ofList]

end PropertySource

/-- What a command prints depends on its source through what is loaded from it. -/
theorem Command.stdout_mapSource {f g : PropertySource → PropertySource}
    (h : ∀ s, (f s).load read = (g s).load read') (c : Command) :
    ((c.mapSource f).execute read).stdout = ((c.mapSource g).execute read').stdout := by
  cases c with
  | render s | annotate s className mapper => simp only [mapSource, execute, h]
  | lint s failOnError errorsOnly json =>
    simp only [mapSource, execute, h]
    cases (g s).load read' <;> rfl
  | features json => rfl

namespace PropertySource

/-- A file and further pairs load like the entries of the file and these pairs without a file: each
key where it is given first, with the value that it is given last. A pair is given as its key, an
equals sign and its value, where the key is not empty and has no equals sign. If all keys of the
file are such, then its entries can be given as pairs on the command line, and every command
prints what it prints with the file. -/
theorem load_file_eq_load_pairs (hread : read path = some contents)
    (hdocument : (Format.ofPath path).read? contents = some document)
    (hflatten : document.flatten = .ok p) :
    (∀ pairs, ∃ q, (PropertySource.mk (some path) pairs).load read = .ok q ∧
      (PropertySource.mk none (p.entries ++ pairs)).load read' = .ok q ∧
      q.entries = Association.collapse (p.entries ++ pairs)) ∧
    (∀ s, (∃ pair, readPair s = .ok pair) ↔ '=' ∈ s.toList ∧ s.toList.head? ≠ some '=') ∧
    (∀ s pair, readPair s = .ok pair ↔
      s = pair.1 ++ "=" ++ pair.2 ∧ pair.1 ≠ "" ∧ '=' ∉ pair.1.toList) ∧
    ((∀ key ∈ p.keys, key ≠ "" ∧ '=' ∉ key.toList) →
      (p.entries.map pairText).mapM readPair = .ok p.entries ∧
      (PropertySource.mk none p.entries).load read' = .ok p ∧
      ∀ name args command,
        CommandLine.read (name :: configArgument path :: args) = .ok command →
        ∃ command', CommandLine.read (name :: (p.entries.map pairArgument ++ args)) = .ok command' ∧
          (command'.execute read').stdout = (command.execute read).stdout) := by
  have hload := load_file hread hdocument hflatten
  refine ⟨fun pairs => ⟨_, hload pairs, load_pairs read' _, Properties.entries_ofList _⟩,
    fun s => exists_readPair_iff, fun s pair => readPair_eq_ok_iff, fun hkeys => ?_⟩
  have hpairs : ∀ pair ∈ p.entries, IsPairKey pair.1 :=
    fun pair hm => hkeys _ (List.mem_map_of_mem hm)
  refine ⟨mapM_readPair hpairs, ?_, fun name args command h => ?_⟩
  · rw [load_pairs, Properties.ofList_entries]
  · obtain ⟨hfile, hpairs⟩ := read_pairArguments hpairs h
    have hsame : ((command.mapSource fun s => ⟨none, p.entries ++ s.pairs⟩).execute read').stdout =
        ((command.mapSource fun s => ⟨some path, s.pairs⟩).execute read).stdout :=
      Command.stdout_mapSource (fun s => by rw [load_pairs, hload]) command
    rw [hfile] at hsame
    exact ⟨_, hpairs, hsame⟩

theorem load_file_eq_load_pairs_of_repeated_keys :
    let read := fun _ : String => some
      "\x7b\"builder\": false, \"a.b\": 1, \"a\": \x7b\"b\": \"x=y\", \"c\": [true, \"\"]\x7d\x7d"
    let source : PropertySource := ⟨some "p.json", [("c", "="), ("builder", "TRUE"), ("c", "")]⟩
    (∃ q, source.load read = .ok q ∧
      q.entries = [("builder", "TRUE"), ("a.b", "x=y"), ("a.c", "true,"), ("c", "")]) ∧
    ∃ command, CommandLine.read ["annotate", "--set=builder=false", "--set=a.b=x=y",
        "--set=a.c=true,", "--class", "User", "--mapper", "-sc==", "-sbuilder=TRUE", "-sc="] =
          .ok command ∧
      (command.execute fun _ => none).stdout =
        ((Command.annotate source "User" true).execute read).stdout := by
  intro read source
  obtain ⟨hload, -, -, hpairs⟩ :=
    @load_file_eq_load_pairs read (fun _ => none) "p.json" _
      (.table [("builder", .bool false), ("a.b", .number (.integer 1)),
        ("a", .table [("b", .text "x=y"), ("c", .list [.bool true, .text ""])])])
      (.ofList [("builder", "false"), ("a.b", "x=y"), ("a.c", "true,")]) rfl rfl rfl
  obtain ⟨q, hq, -, he⟩ := hload [("c", "="), ("builder", "TRUE"), ("c", "")]
  obtain ⟨-, -, hcommand⟩ := hpairs (by decide)
  exact ⟨⟨q, hq, he.trans (by decide)⟩, hcommand "annotate" _ _ rfl⟩

end PropertySource

end ClassAnnotator

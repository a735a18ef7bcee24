import ClassAnnotator.Json.Printer
import ClassAnnotator.Json.Reader
import Mathlib.Data.List.Forall2

/-! # Reading a written document

A document of texts, lists and tables is read back from its indented JSON text. The text is cut
into the tokens of the document, whatever blanks stand between them, and these are read one
container at a time.
-/

namespace ClassAnnotator

/-- A document of texts in at most `n` containers. The members of a table have different names. -/
inductive Document.Texts : ℕ → Document → Prop
  | text (n : ℕ) (s : String) : Texts n (.text s)
  | list {n : ℕ} {items : List Document} (h : ∀ d ∈ items, Texts n d) : Texts (n + 1) (.list items)
  | table {n : ℕ} {members : List (String × Document)} (hn : (members.map Prod.fst).Nodup)
      (h : ∀ m ∈ members, Texts n m.2) : Texts (n + 1) (.table members)

namespace Json

mutual

def tokens : Document → List Token
  | .null => [.null]
  | .bool b => [.bool b]
  | .number n => [.number n]
  | .text s => [.text s]
  | .list items => .openList :: [Token.comma].intercalate (itemTokens items) ++ [.closeList]
  | .table members =>
    .openTable :: [Token.comma].intercalate (memberTokens members) ++ [.closeTable]

def itemTokens : List Document → List (List Token)
  | [] => []
  | d :: rest => tokens d :: itemTokens rest

def memberTokens : List (String × Document) → List (List Token)
  | [] => []
  | (name, d) :: rest => (.text name :: .colon :: tokens d) :: memberTokens rest

end

theorem itemTokens_eq (items : List Document) : itemTokens items = items.map tokens := by
  induction items with
  | nil => rw [itemTokens, List.map_nil]
  | cons d rest ih => rw [itemTokens, ih, List.map_cons]

theorem memberTokens_eq (members : List (String × Document)) :
    memberTokens members = members.map fun m => .text m.1 :: .colon :: tokens m.2 := by
  induction members with
  | nil => rw [memberTokens, List.map_nil]
  | cons m rest ih => rw [memberTokens, ih, List.map_cons]

theorem prettyItems_eq (level : ℕ) (items : List Document) :
    prettyItems level items = items.map (prettyAt level) := by
  induction items with
  | nil => rw [prettyItems, List.map_nil]
  | cons d rest ih => rw [prettyItems, ih, List.map_cons]

theorem prettyMembers_eq (level : ℕ) (members : List (String × Document)) :
    prettyMembers level members =
      members.map fun m => quoted m.1 ++ ": " ++ prettyAt level m.2 := by
  induction members with
  | nil => rw [prettyMembers, List.map_nil]
  | cons m rest ih => rw [prettyMembers, ih, List.map_cons]

namespace LexState

variable {c : Char} {cs cs' sep acc rest : List Char} {t : Token} {ts ts' done : List Token}

/-- Between tokens the machine reads `cs` as the tokens `ts` and is between tokens again. -/
def Lexes (cs : List Char) (ts : List Token) : Prop :=
  ∀ done rest, between.run? done (cs ++ rest) = between.run? (ts.reverse ++ done) rest

theorem Lexes.nil : Lexes [] [] := fun _ _ => rfl

theorem Lexes.append (h : Lexes cs ts) (h' : Lexes cs' ts') : Lexes (cs ++ cs') (ts ++ ts') := by
  intro done rest
  rw [List.append_assoc, h, h', List.reverse_append, List.append_assoc]

theorem lexes_of_start? (h : start? c = some (ts, between)) : Lexes [c] ts := by
  intro done rest
  rw [List.singleton_append, run?, step?, h]

theorem lexes_of_isSpace (h : isSpace c = true) : Lexes [c] [] :=
  lexes_of_start? (by rw [start?, if_pos h])

theorem lexes_blanks (h : ∀ c ∈ cs, isSpace c = true) : Lexes cs [] := by
  induction cs with
  | nil => exact .nil
  | cons c cs ih =>
    exact (lexes_of_isSpace (h c (List.mem_cons_self ..))).append
      (ih fun d hd => h d (List.mem_cons_of_mem _ hd))

theorem lexes_newLine (level : ℕ) : Lexes (newLine level).toList [] := by
  refine lexes_blanks fun c hc => ?_
  simp only [newLine, String.toList_append, String.toList_ofList, List.mem_append,
    List.mem_replicate] at hc
  rcases hc with hc | ⟨-, rfl⟩
  · rw [List.mem_singleton.mp hc]
    rfl
  · rfl

theorem digitIn?_digitChar : ∀ n < 16, Text.digitIn? 16 (Nat.digitChar n) = some n := by decide

theorem charOfCode?_toNat (c : Char) : Text.charOfCode? c.toNat = some c := by
  have hvalid : c.toNat.isValidChar := c.valid
  rw [Text.charOfCode?, if_pos hvalid, Char.ofNat_toNat]

theorem run?_code (h : c.toNat < 0x20) :
    (text acc).run? done (['\\', 'u', '0', '0', Nat.digitChar (c.toNat / 16),
      Nat.digitChar (c.toNat % 16)] ++ rest) = (text (c :: acc)).run? done rest := by
  have hzero : Text.digitIn? 16 '0' = some 0 := by decide
  have hhigh : Text.digitIn? 16 (Nat.digitChar (c.toNat / 16)) = some (c.toNat / 16) :=
    digitIn?_digitChar _ (by omega)
  have hlow : Text.digitIn? 16 (Nat.digitChar (c.toNat % 16)) = some (c.toNat % 16) :=
    digitIn?_digitChar _ (by omega)
  have hcode : c.toNat / 16 * 16 + c.toNat % 16 = c.toNat := by omega
  have hplain : ¬ (0xD800 ≤ c.toNat ∧ c.toNat < 0xDC00) := by omega
  simp [run?, step?, hzero, hhigh, hlow, hcode, afterUnit?, hplain, charOfCode?_toNat]

theorem run?_escapeChar (c : Char) :
    (text acc).run? done (escapeChar c ++ rest) = (text (c :: acc)).run? done rest := by
  unfold escapeChar
  split
  -- Every short escape is read back by evaluation.
  all_goals try rfl
  next hquote hslash _ _ _ _ _ =>
    have hquote : ¬ c = '"' := hquote
    have hslash : ¬ c = '\\' := hslash
    split
    · next h => exact run?_code h
    · next h => simp [run?, step?, hquote, hslash, h]

theorem lexes_quoted (s : String) : Lexes (quoted s).toList [.text s] := by
  have hinside : ∀ cs acc done rest, (text acc).run? done (cs.flatMap escapeChar ++ '"' :: rest) =
      between.run? (.text (String.ofList (acc.reverse ++ cs)) :: done) rest := by
    intro cs
    induction cs with
    | nil =>
      intro acc done rest
      simp [run?, step?]
    | cons c cs ih =>
      intro acc done rest
      rw [List.flatMap_cons, List.append_assoc, run?_escapeChar, ih]
      simp
  intro done rest
  have hstart : start? '"' = some ([], text []) := rfl
  simp [quoted, run?, step?, hstart, hinside]

theorem Lexes.intercalate {parts : List (List Char)} {tss : List (List Token)}
    (hsep : Lexes sep [t]) (h : List.Forall₂ Lexes parts tss) :
    Lexes (sep.intercalate parts) ([t].intercalate tss) := by
  induction h with
  | nil => exact .nil
  | cons hp h ih =>
    cases h with
    | nil => simpa using hp
    | cons hp' h =>
      simpa using hp.append (hsep.append ih)

theorem lexes_lines {level : ℕ} {parts : List String} {tss : List (List Token)}
    (h : List.Forall₂ (fun s ts => Lexes s.toList ts) parts tss) :
    Lexes (lines level parts).toList ([Token.comma].intercalate tss) := by
  have hsep : Lexes ("," ++ newLine (level + 1)).toList [.comma] := by
    rw [String.toList_append]
    exact (lexes_of_start? (c := ',') rfl).append (lexes_newLine _)
  have hparts := Lexes.intercalate hsep (List.forall₂_map_left_iff.mpr h)
  have hlines := ((lexes_newLine (level + 1)).append hparts).append (lexes_newLine level)
  simpa [lines, String.toList_intercalate] using hlines

theorem Lexes.list (h : Lexes cs ts) :
    Lexes ('[' :: cs ++ [']']) (.openList :: ts ++ [.closeList]) :=
  ((lexes_of_start? (c := '[') rfl).append h).append (lexes_of_start? rfl)

theorem Lexes.table (h : Lexes cs ts) :
    Lexes ('{' :: cs ++ ['}']) (.openTable :: ts ++ [.closeTable]) :=
  ((lexes_of_start? (c := '{') rfl).append h).append (lexes_of_start? rfl)

/-- The indented text of a document is cut into the tokens of the document. -/
theorem lexes_prettyAt {n : ℕ} {d : Document} (h : d.Texts n) (level : ℕ) :
    Lexes (prettyAt level d).toList (tokens d) := by
  induction h generalizing level with
  | text n s =>
    rw [prettyAt, tokens]
    exact lexes_quoted s
  | @list n items h ih =>
    cases items with
    | nil =>
      rw [prettyAt, tokens, itemTokens]
      exact Lexes.nil.list
    | cons d rest =>
      have hitems : List.Forall₂ (fun s ts => Lexes s.toList ts)
          (prettyItems (level + 1) (d :: rest)) (itemTokens (d :: rest)) := by
        rw [prettyItems_eq, itemTokens_eq, List.forall₂_map_left_iff, List.forall₂_map_right_iff,
          List.forall₂_same]
        exact fun d hd => ih d hd (level + 1)
      rw [prettyAt, tokens]
      simpa using (lexes_lines hitems).list
  | @table n members hn h ih =>
    cases members with
    | nil =>
      rw [prettyAt, tokens, memberTokens]
      exact Lexes.nil.table
    | cons m rest =>
      have hmembers : List.Forall₂ (fun s ts => Lexes s.toList ts)
          (prettyMembers (level + 1) (m :: rest)) (memberTokens (m :: rest)) := by
        rw [prettyMembers_eq, memberTokens_eq, List.forall₂_map_left_iff,
          List.forall₂_map_right_iff, List.forall₂_same]
        intro m hm
        have hcolon : Lexes [':', ' '] [.colon] :=
          (lexes_of_start? (c := ':') rfl).append (lexes_of_isSpace (c := ' ') rfl)
        simpa using ((lexes_quoted m.1).append hcolon).append (ih m hm (level + 1))
      rw [prettyAt, tokens]
      simpa using (lexes_lines hmembers).table

end LexState

namespace ReadState

variable {n : ℕ} {d : Document} {outer : List Frame} {rest ts : List Token}

theorem put_of_not_mem {name : String} {done : List (String × Document)}
    (h : name ∉ done.map Prod.fst) (d : Document) :
    Association.put name d done = done ++ [(name, d)] := by
  induction done with
  | nil => rfl
  | cons m done ih =>
    obtain ⟨hm, h⟩ := not_or.mp (mt List.mem_cons.mpr h)
    rw [Association.put, if_neg (Ne.symm hm), ih h, List.cons_append]

theorem foldlM_step {s s' : ReadState} {t : Token} (h : step? s t = some s') (ts : List Token) :
    (t :: ts).foldlM step? s = ts.foldlM step? s' := by
  rw [List.foldlM_cons, h]
  rfl

/-- Where a value must stand, with `n` more containers allowed, the tokens are read as `d`. -/
def Reads (n : ℕ) (ts : List Token) (d : Document) : Prop :=
  ∀ outer rest, outer.length + n ≤ depthLimit →
    (ts ++ rest).foldlM step? (value outer) = rest.foldlM step? (complete d outer)

theorem length_cons_add_le (h : outer.length + (n + 1) ≤ depthLimit) (f : Frame) :
    (f :: outer).length + n ≤ depthLimit := by
  rw [List.length_cons]
  omega

theorem foldlM_items {done items : List Document} (houter : outer.length + (n + 1) ≤ depthLimit)
    (h : ∀ e ∈ d :: items, Reads n (tokens e) e) :
    ([Token.comma].intercalate (itemTokens (d :: items)) ++ .closeList :: rest).foldlM step?
        (value (.list done :: outer)) =
      rest.foldlM step? (complete (.list (done.reverse ++ d :: items)) outer) := by
  induction items generalizing d done with
  | nil =>
    rw [itemTokens, itemTokens, List.intercalate_singleton,
      h d (List.mem_cons_self ..) _ _ (length_cons_add_le houter _), complete, foldlM_step rfl,
      List.reverse_cons]
  | cons e items ih =>
    rw [itemTokens, itemTokens, List.intercalate_cons_cons, ← itemTokens, List.append_assoc,
      List.append_assoc, h d (List.mem_cons_self ..) _ _ (length_cons_add_le houter _), complete,
      List.singleton_append, foldlM_step rfl, ih fun e' he' => h e' (List.mem_cons_of_mem _ he')]
    simp

section

variable {first : Bool} {m : String × Document} {done members : List (String × Document)}

theorem foldlM_member (houter : outer.length + (n + 1) ≤ depthLimit)
    (hm : m.1 ∉ done.map Prod.fst) (h : Reads n (tokens m.2) m.2) :
    (.text m.1 :: .colon :: tokens m.2 ++ rest).foldlM step? (memberName first done outer) =
      rest.foldlM step? (afterMember (done ++ [m]) outer) := by
  rw [List.cons_append, List.cons_append, foldlM_step rfl, foldlM_step rfl,
    h _ _ (length_cons_add_le houter _), complete, put_of_not_mem hm]

theorem foldlM_members (houter : outer.length + (n + 1) ≤ depthLimit)
    (hn : ((done ++ m :: members).map Prod.fst).Nodup)
    (h : ∀ e ∈ m :: members, Reads n (tokens e.2) e.2) :
    ([Token.comma].intercalate (memberTokens (m :: members)) ++ .closeTable :: rest).foldlM step?
        (memberName first done outer) =
      rest.foldlM step? (complete (.table (done ++ m :: members)) outer) := by
  have hnew : ∀ {m : String × Document} {done members : List (String × Document)},
      ((done ++ m :: members).map Prod.fst).Nodup → m.1 ∉ done.map Prod.fst := by
    intro m done members hn hmem
    rw [List.map_append, List.map_cons, List.nodup_append] at hn
    exact hn.2.2 _ hmem _ (List.mem_cons_self ..) rfl
  induction members generalizing m done first with
  | nil =>
    rw [memberTokens, memberTokens, List.intercalate_singleton,
      foldlM_member houter (hnew hn) (h m (List.mem_cons_self ..)), foldlM_step rfl]
  | cons e members ih =>
    have hn' : ((done ++ [m] ++ e :: members).map Prod.fst).Nodup := by simpa using hn
    rw [memberTokens, memberTokens, List.intercalate_cons_cons, ← memberTokens, List.append_assoc,
      List.append_assoc, foldlM_member houter (hnew hn) (h m (List.mem_cons_self ..)),
      List.singleton_append, foldlM_step rfl,
      ih hn' fun e' he' => h e' (List.mem_cons_of_mem _ he')]
    simp

end

theorem exists_intercalate_itemTokens (d : Document) (items : List Document) :
    ∃ more, [Token.comma].intercalate (itemTokens (d :: items)) = tokens d ++ more := by
  cases items with
  | nil => exact ⟨[], by rw [itemTokens, itemTokens, List.intercalate_singleton, List.append_nil]⟩
  | cons e items =>
    rw [itemTokens, itemTokens, List.intercalate_cons_cons, List.append_assoc]
    exact ⟨_, rfl⟩

/-- A list starts with its first element, since no document starts with a closing bracket. -/
theorem listStart_tokens (d : Document) (outer : List Frame) (rest : List Token) :
    (tokens d ++ rest).foldlM step? (listStart outer) =
      (tokens d ++ rest).foldlM step? (value (.list [] :: outer)) := by
  cases d <;> rw [tokens] <;> rfl

theorem reads_tokens (h : d.Texts n) : Reads n (tokens d) d := by
  induction h with
  | text n s =>
    intro outer rest _
    rw [tokens, List.singleton_append, foldlM_step rfl]
  | @list n items h ih =>
    intro outer rest houter
    have hopen : step? (value outer) .openList = some (listStart outer) :=
      if_pos (by omega)
    rw [tokens, List.cons_append, List.cons_append, List.append_assoc, List.singleton_append,
      foldlM_step hopen]
    cases items with
    | nil =>
      rw [itemTokens, List.intercalate_nil, List.nil_append, foldlM_step rfl]
    | cons d items =>
      obtain ⟨more, hmore⟩ := exists_intercalate_itemTokens d items
      have hitems : ([Token.comma].intercalate (itemTokens (d :: items)) ++
          .closeList :: rest).foldlM step? (value (.list [] :: outer)) =
            rest.foldlM step? (complete (.list (d :: items)) outer) := foldlM_items houter ih
      rw [← hitems, hmore, List.append_assoc, listStart_tokens]
  | @table n members hn h ih =>
    intro outer rest houter
    have hopen : step? (value outer) .openTable = some (memberName true [] outer) :=
      if_pos (by omega)
    rw [tokens, List.cons_append, List.cons_append, List.append_assoc, List.singleton_append,
      foldlM_step hopen]
    cases members with
    | nil => rw [memberTokens, List.intercalate_nil, List.nil_append, foldlM_step rfl]
    | cons m members =>
      exact foldlM_members houter hn ih

end ReadState

/-- A document of texts is read back from its indented text, with blanks behind it or not. -/
theorem read?_pretty {d : Document} (h : d.Texts depthLimit) {blanks : String}
    (hblanks : ∀ c ∈ blanks.toList, LexState.isSpace c = true) :
    read? (pretty d ++ blanks) = some d := by
  have hlexes : LexState.Lexes (pretty d ++ blanks).toList (tokens d) := by
    rw [String.toList_append, ← List.append_nil (tokens d)]
    exact (LexState.lexes_prettyAt h 0).append (LexState.lexes_blanks hblanks)
  have htokens : tokens? (pretty d ++ blanks).toList = some (tokens d) := by
    have hrun := hlexes [] []
    rw [List.append_nil, List.append_nil] at hrun
    rw [tokens?, hrun]
    simp [LexState.run?, LexState.finish?]
  have hread := ReadState.reads_tokens h [] [] (by simp)
  rw [List.append_nil] at hread
  rw [read?, htokens, Option.bind_some, ReadState.run?, hread]
  rfl

end Json

end ClassAnnotator

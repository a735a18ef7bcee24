import ClassAnnotator.Proofs.Described
import ClassAnnotator.Proofs.Leaves
import ClassAnnotator.Proofs.Wrapping

/-! # Lists from document to annotation

Flattening puts commas between the texts of a list, and the literal of an option cuts its value at
commas. So a list of texts without commas is written as an array with the same elements, unless it
has fewer than two.
-/

namespace ClassAnnotator

namespace Quoting

open Text

/-- An element of an array: its words are quoted, `true` and `false` too. -/
def elementText (text : String) : String :=
  String.ofList ((runs (trim text.toList)).flatMap quoteRun)

def listLiteral : List String → String
  | [] => ""
  | [text] => literal text
  | texts => "\x7b" ++ ", ".intercalate (texts.map elementText) ++ "\x7d"

def listFragment (key : String) (texts : List String) : String := key ++ "=" ++ listLiteral texts

variable {texts : List String}

theorem toList_elementText (text : String) :
    (elementText text).toList = wrapWords (trim text.toList) := by
  rw [elementText, String.toList_ofList, wrapWords_eq_flatMap_runs]

/-- Texts without commas are the elements of the text that they are joined to. -/
theorem items_intercalate (hne : texts ≠ []) (h : ∀ text ∈ texts, ',' ∉ text.toList) :
    items (",".intercalate texts).toList = texts.map (trim ·.toList) := by
  have hsplit : splitEach ',' ([','].intercalate (texts.map String.toList)) =
      texts.map String.toList :=
    splitEach_intercalate (by simpa using hne) (by simpa using h)
  rw [String.toList_intercalate, items]
  exact (congrArg (List.map trim) hsplit).trans (List.map_map ..)

theorem literal_intercalate (h : ∀ text ∈ texts, ',' ∉ text.toList) :
    literal (",".intercalate texts) = listLiteral texts := by
  match texts with
  | [] => rfl
  | [text] => simp [listLiteral]
  | first :: second :: rest =>
    have hcomma : ',' ∈ (",".intercalate (first :: second :: rest)).toList := by
      simp [String.toList_intercalate]
    have hlist : listLiteral (first :: second :: rest) =
        "\x7b" ++ ", ".intercalate ((first :: second :: rest).map elementText) ++ "\x7d" := rfl
    apply String.toList_injective
    rw [toList_literal_of_mem hcomma, items_intercalate (by simp) h, hlist]
    simp [String.toList_intercalate, toList_elementText, Function.comp_def]

end Quoting

namespace Document

variable {document : Document} {items : List Document} {texts : List String} {p : Properties}
  {x : Flag} {name : String}

theorem leafEntry_list (path : String) (h : items.mapM scalarText = .ok texts) :
    leafEntry (path, .list items) = .ok (path, ",".intercalate texts) := by
  simp [leafEntry, leafText, listText, h, Except.map, Except.mapError]

theorem setting_of_list (hdocument : document.flatten = .ok p) (hx : x ∈ p.flags)
    (hleaf : document.leaves.filter (·.1 = x.key ++ "." ++ name) =
      [(x.key ++ "." ++ name, .list items)])
    (htexts : items.mapM scalarText = .ok texts) :
    ⟨x.key, name, ",".intercalate texts⟩ ∈ p.settings := by
  have hentry := mem_entries_of_leaf hdocument hleaf (leafEntry_list _ htexts)
  exact Properties.mem_settings.mpr ⟨hentry, (Properties.mem_flags.mp hx).1⟩

/-- A list that stands alone under a path of a flag becomes one setting, whose fragment writes the
texts of the list in their order. The feature of the flag has this fragment, between those of the
flag's other settings. -/
theorem fragment_of_list (hdocument : document.flatten = .ok p) (hx : x ∈ p.flags)
    (hleaf : document.leaves.filter (·.1 = x.key ++ "." ++ name) =
      [(x.key ++ "." ++ name, .list items)])
    (htexts : items.mapM scalarText = .ok texts) (hcomma : ∀ text ∈ texts, ',' ∉ text.toList) :
    ∃ y before after, p.settings.filter (·.owner = x.key) = before ++ y :: after ∧
      (∀ z ∈ p.settings, z.key = x.key ++ "." ++ name ↔ z = y) ∧
      y.fragment = Quoting.listFragment name texts ∧
      ∃ g ∈ p.compile.features, g.feature = x.feature ∧
        (before ++ y :: after).map Setting.fragment <:+: g.options := by
  have hy := setting_of_list hdocument hx hleaf htexts
  obtain ⟨before, after, hsplit⟩ := List.append_of_mem
    (List.mem_filter (p := (·.owner = x.key)).mpr ⟨hy, decide_eq_true rfl⟩)
  refine ⟨_, before, after, hsplit, fun z hz => ⟨fun hk => ?_, fun he => he ▸ rfl⟩, ?_,
    _, Properties.mem_features_compile.mpr ⟨x.feature, feature_mem_namedFeatures hx, rfl⟩, rfl,
    hsplit ▸ infix_collected hx⟩
  · exact List.inj_on_of_nodup_map p.nodup_setting_keys hz hy hk
  · exact congrArg (name ++ "=" ++ ·) (Quoting.literal_intercalate hcomma)

theorem fragment_of_list_of_mixed_scalars :
    let document : Document := .table
      [("Builder.of", .table [("names", .list
          [.text " true", .bool true, .text "", .number (.integer (-7)), .text "a-b c"])]),
        ("Builder", .bool true)]
    let p := Properties.ofList
      [("Builder.of.names", " true,true,,-7,a-b c"), ("Builder", "true")]
    document.flatten = .ok p ∧ ∃ g ∈ p.compile.features, g.feature.key = "builder" ∧
      ["of.names=\x7b\"true\", \"true\", , -\"7\", \"a\"-\"b\" \"c\"\x7d"] <:+: g.options := by
  intro document p
  refine ⟨rfl, ?_⟩
  obtain ⟨y, before, after, -, -, hy, g, hg, hf, hi⟩ :=
    @fragment_of_list document _ _ p
      ⟨"Builder", ⟨"builder", "@Builder", "lombok.Builder", []⟩⟩ "of.names" rfl (by decide) rfl rfl
      (by decide)
  have hy : y.fragment =
      "of.names=\x7b\"true\", \"true\", , -\"7\", \"a\"-\"b\" \"c\"\x7d" := hy
  refine ⟨g, hg, congrArg Feature.key hf, List.IsInfix.trans ?_ hi⟩
  exact ⟨before.map Setting.fragment, after.map Setting.fragment, by simp [hy]⟩

end Document

end ClassAnnotator

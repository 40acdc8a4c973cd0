import TypeRegistry.Class.Store
import TypeRegistry.Proofs.Text.Lossy

/-!
# The text of a path

A module without a name is shown by its path, whatever bytes spell it. Text is shown as it is, also
where it stands between bytes that are none, and what is not text takes one replacement character
for each ill-formed run.

## Main statements

* `SourcePath.display_ofString`, `SourcePath.display_append`: what is text is shown.
* `SourcePath.display_eq_of_splits`: the characters and runs that the text of a path shows.
* `Store.render_module_ofPath`: where a rendered module shows its path.
-/

namespace TypeRegistry

open Text.Utf8 (Piece Splits pieces)

namespace SourcePath

/-- A path that is text is shown as this text. -/
theorem display_ofString (text : String) : (ofString text).display = text := by
  have hshown : (text.toList.map Piece.scalar).map Piece.shown = text.toList := by
    simp [Function.comp_def, Piece.shown]
  rw [display, ofString, Text.Utf8.decodeLossy, Text.Utf8.pieces_encode, hshown,
    String.ofList_toList]

/-- Text inside a path is shown as it is, and leaves what is around it as it was. -/
theorem display_append {text : String} (htext : text ≠ "") (before after : List UInt8) :
    (SourcePath.mk (before ++ Text.Utf8.encode text ++ after)).display =
      (SourcePath.mk before).display ++ text ++ (SourcePath.mk after).display := by
  have hshown : (text.toList.map Piece.scalar).map Piece.shown = text.toList := by
    simp [Function.comp_def, Piece.shown]
  simp only [display, Text.Utf8.decodeLossy, Text.Utf8.pieces_append_encode htext, List.map_append,
    hshown, String.ofList_append, String.ofList_toList]

/-- A path is shown by its characters, and by one replacement character for each ill-formed run. -/
theorem display_eq_of_splits {p : SourcePath} {ps : List Piece} (hps : Splits p.bytes ps) :
    p.display = String.ofList (ps.map Piece.shown) := by
  rw [display, Text.Utf8.decodeLossy, (Text.Utf8.splits_pieces p.bytes).unique hps]

end SourcePath

namespace Store

/-- A module without a name shows its path. -/
theorem render_module_ofPath (s : Store) (p : SourcePath) :
    s.render (.module (.ofPath p)) = "<module " ++ p.display ++ ">" := by
  rfl

/-- A module without a name is shown by the text of its path. A text is the text of the path that
spells it, and in any path it is shown as it is, between the texts of the bytes before it and
after it. The bytes of a path are split in one way into characters and ill-formed runs of at most
three bytes, each run as long as it can be, and the path is shown by these characters and one
replacement character for each run. -/
theorem pathText_readable (s : Store) :
    (∀ bytes, s.render (.module (.ofPath ⟨bytes⟩)) =
        "<module " ++ (SourcePath.mk bytes).display ++ ">") ∧
      (∀ text, (SourcePath.mk (Text.Utf8.encode text)).display = text) ∧
      (∀ text before after, text ≠ "" →
        (SourcePath.mk (before ++ Text.Utf8.encode text ++ after)).display =
          (SourcePath.mk before).display ++ text ++ (SourcePath.mk after).display) ∧
      (∀ bytes, ∃! ps, Splits bytes ps) ∧
      ∀ bytes ps, Splits bytes ps →
        ps.flatMap Piece.bytes = bytes ∧
        (∀ run, .illFormed run ∈ ps → run ≠ [] ∧ run.length ≤ 3) ∧
        (SourcePath.mk bytes).display = String.ofList (ps.map Piece.shown) := by
  refine ⟨fun bytes => s.render_module_ofPath ⟨bytes⟩, SourcePath.display_ofString, ?_, ?_, ?_⟩
  · intro text before after htext
    exact SourcePath.display_append htext before after
  · intro bytes
    refine ⟨_, Text.Utf8.splits_pieces bytes, ?_⟩
    exact fun ps hps => hps.unique (Text.Utf8.splits_pieces bytes)
  · intro bytes ps hps
    refine ⟨hps.flatMap_bytes, ?_, SourcePath.display_eq_of_splits hps⟩
    intro run hrun
    obtain ⟨rest, hill⟩ := hps.exists_illFormedRun hrun
    exact ⟨hill.ne_nil, hill.length_le⟩

/-- A letter between two bytes of an encoding that is cut short and two bytes that continue none. -/
theorem pathText_readable_between_strays :
    let path : List UInt8 := [0xE2, 0x82] ++ Text.Utf8.encode "a" ++ [0x80, 0xBF]
    Splits path [.illFormed [0xE2, 0x82], .scalar 'a', .illFormed [0x80], .illFormed [0xBF]] ∧
      (SourcePath.mk path).display = "\uFFFD" ++ "a" ++ "\uFFFD\uFFFD" ∧
      (SourcePath.mk path).display = "\uFFFDa\uFFFD\uFFFD" := by
  intro path
  obtain ⟨-, -, hinside, -, hshown⟩ := pathText_readable empty
  have hsplits : Splits path _ := Text.Utf8.splits_pieces path
  exact ⟨hsplits, hinside "a" [0xE2, 0x82] [0x80, 0xBF] (by decide),
    (hshown path _ hsplits).2.2⟩

end Store

end TypeRegistry

import TypeRegistry.Proofs.Debug.Outline

/-!
# The two layouts of debug text

Both layouts of a debug tree are texts of one outline. They differ in what stands between the parts
of a group, and on many lines each part starts on a line that is one level deeper.

## Main definitions and statements

* `Node.outline`: what the debug text of a tree shows.
* `Node.Readable`: the two layouts of a tree are those of its outline, which can be read back.
* `Node.Readable.variant`, `Node.Readable.list`, `Node.Readable.record`: trees of readable trees.
* `Node.Readable.texts_eq_iff`: readable trees of one text have one outline.
-/

namespace TypeRegistry.Debug

namespace Layout

/-- A group with parts has the space of the layout around and between them. -/
theorem body_of_ne_nil (L : Layout) (b : Bracket) (d : Nat) {texts : List (List Char)}
    (h : texts ≠ []) :
    L.body b d texts = L.lead b d ++ ((L.sep d).intercalate texts ++ L.trail b d) := by
  cases texts with
  | nil => exact absurd rfl h
  | cons t ts => rfl

/-- What is between the brackets of a group. Empty brackets have no blanks inside. -/
theorem body_oneLine {b : Bracket} (d : Nat) {texts : List (List Char)}
    (h : texts = [] → padding b = []) :
    oneLine.body b d texts = padding b ++ ([',', ' '].intercalate texts ++ padding b) := by
  cases texts with
  | nil =>
      rw [h rfl]
      rfl
  | cons t ts => exact body_of_ne_nil _ _ _ (List.cons_ne_nil t ts)

/-- Lines that end in commas are texts with a comma and a new line between them. -/
theorem flatMap_lines (d : Nat) (t : List Char) (ts : List (List Char)) :
    (t :: ts).flatMap (fun t => blanks d ++ (t ++ [',', '\n'])) =
      blanks d ++ ((',' :: '\n' :: blanks d).intercalate (t :: ts) ++ [',', '\n']) := by
  induction ts generalizing t with
  | nil => simp
  | cons t' ts ih => rw [List.flatMap_cons, ih, List.intercalate_cons_cons]; simp

/-- The lines between the brackets of a group. -/
theorem body_manyLines (b : Bracket) (d : Nat) {texts : List (List Char)} (h : texts ≠ []) :
    manyLines.body b d texts =
      '\n' :: (texts.flatMap (fun t => blanks (d + 1) ++ (t ++ [',', '\n'])) ++ blanks d) := by
  obtain ⟨t, ts, rfl⟩ := List.exists_cons_of_ne_nil h
  rw [body_of_ne_nil _ _ _ h, flatMap_lines, manyLines_lead, manyLines_sep, manyLines_trail]
  simp only [List.append_assoc, List.cons_append, List.nil_append]

end Layout

namespace Node

mutual

/-- What the debug text of a tree shows, for a tree without maps and without fields that are left
out. -/
def outline : Node → Outline
  | word w => .word w.toList
  | number n => .word n.repr.toList
  | text s => .quoted (s.toList.map .inl)
  | path p => .quoted p.glyphs
  | variant name payload => .group name.toList .round [payload.outline]
  | list items => .group [] .square (outlineItems items)
  | table _ => .group [] .curly []
  | record name fields _ => .group name.toList .curly (outlineFields fields)

/-- The outlines of the items of a list. -/
def outlineItems : List Node → List Outline
  | [] => []
  | node :: nodes => node.outline :: outlineItems nodes

/-- The outlines of the fields of a record, each with its label. -/
def outlineFields : List (String × Node) → List Outline
  | [] => []
  | (label, value) :: fields => .labelled label.toList value.outline :: outlineFields fields

end

theorem outlineItems_eq_map (items : List Node) : outlineItems items = items.map outline := by
  induction items with
  | nil => rfl
  | cons node nodes ih => exact congrArg (node.outline :: ·) ih

theorem outlineFields_eq_map (fields : List (String × Node)) :
    outlineFields fields = fields.map fun f => .labelled f.1.toList f.2.outline := by
  induction fields with
  | nil => rfl
  | cons f fields ih => exact congrArg (.labelled f.1.toList f.2.outline :: ·) ih

@[simp]
theorem outline_variant (name : String) (payload : Node) :
    (variant name payload).outline = .group name.toList .round [payload.outline] := rfl

@[simp]
theorem outline_list (items : List Node) :
    (list items).outline = .group [] .square (items.map outline) := by
  rw [← outlineItems_eq_map]
  rfl

@[simp]
theorem outline_record (name : String) (fields : List (String × Node)) (elided : Bool) :
    (record name fields elided).outline =
      .group name.toList .curly (fields.map fun f => .labelled f.1.toList f.2.outline) := by
  rw [← outlineFields_eq_map]
  rfl

/-! ### The layouts of trees of trees -/

theorem plainItems_eq_map (items : List Node) : plainItems items = items.map plain := by
  induction items with
  | nil => rfl
  | cons node nodes ih => exact congrArg (node.plain :: ·) ih

theorem plainFields_eq_map (fields : List (String × Node)) :
    plainFields fields = fields.map fun f => f.1 ++ ": " ++ f.2.plain := by
  induction fields with
  | nil => rfl
  | cons f fields ih => exact congrArg ((f.1 ++ ": " ++ f.2.plain) :: ·) ih

theorem prettyItems_eq_map (d : Nat) (items : List Node) :
    prettyItems d items = items.map (prettyAt d) := by
  induction items with
  | nil => rfl
  | cons node nodes ih => exact congrArg (node.prettyAt d :: ·) ih

theorem prettyFields_eq_map (d : Nat) (fields : List (String × Node)) :
    prettyFields d fields = fields.map fun f => f.1 ++ ": " ++ f.2.prettyAt d := by
  induction fields with
  | nil => rfl
  | cons f fields ih => exact congrArg ((f.1 ++ ": " ++ f.2.prettyAt d) :: ·) ih

theorem plain_variant (name : String) (payload : Node) :
    (variant name payload).plain = name ++ "(" ++ payload.plain ++ ")" := rfl

theorem plain_list (items : List Node) :
    (list items).plain = "[" ++ ", ".intercalate (items.map plain) ++ "]" := by
  rw [← plainItems_eq_map]
  rfl

theorem plain_record (name : String) (fields : List (String × Node)) :
    (record name fields false).plain =
      name ++ " \x7b " ++ ", ".intercalate (fields.map fun f => f.1 ++ ": " ++ f.2.plain) ++
        " \x7d" := by
  rw [← plainFields_eq_map, ← List.append_nil (plainFields fields)]
  rfl

theorem prettyAt_variant (d : Nat) (name : String) (payload : Node) :
    (variant name payload).prettyAt d =
      block d (name ++ "(") (commaLines [payload.prettyAt (d + 1)]) ")" := rfl

/-- Empty brackets stay on their line. -/
theorem prettyAt_nil (d : Nat) : (list []).prettyAt d = "[]" := rfl

theorem prettyAt_list (d : Nat) {items : List Node} (h : items ≠ []) :
    (list items).prettyAt d = block d "[" (commaLines (items.map (prettyAt (d + 1)))) "]" := by
  obtain ⟨item, items, rfl⟩ := List.exists_cons_of_ne_nil h
  rw [← prettyItems_eq_map]
  rfl

theorem prettyAt_record (d : Nat) (name : String) (fields : List (String × Node)) :
    (record name fields false).prettyAt d =
      block d (name ++ " \x7b")
        (commaLines (fields.map fun f => f.1 ++ ": " ++ f.2.prettyAt (d + 1))) "\x7d" := by
  rw [← prettyFields_eq_map, ← List.append_nil (commaLines _)]
  rfl

/-- The lines of a block are the parts of a group. -/
theorem block_toList (b : Bracket) (d : Nat) (opening closing : String) {parts : List String}
    (h : parts ≠ []) :
    (block d opening (commaLines parts) closing).toList =
      opening.toList ++
        (Layout.manyLines.body b d (parts.map String.toList) ++ closing.toList) := by
  have hne : parts.map String.toList ≠ [] := fun hnil => h (List.map_eq_nil_iff.1 hnil)
  rw [Layout.body_manyLines b d hne, block, commaLines, indentation, indentation, List.map_map,
    List.flatMap_map, Layout.blanks, Layout.blanks]
  simp [String.toList_join, List.flatMap_def, Function.comp_def]

/-- A tree whose two layouts are those of its outline, which can be read back. -/
structure Readable (node : Node) : Prop where
  legible : node.outline.Legible
  plain_toList : ∀ d, node.plain.toList = node.outline.text .oneLine d
  pretty_toList : ∀ d, (node.prettyAt d).toList = node.outline.text .manyLines d

namespace Readable

variable {name : String} {payload : Node} {items : List Node} {fields : List (String × Node)}

/-- A word that is a name can be read back. -/
theorem word {w : String} (hw : IsName w.toList) : (word w).Readable where
  legible := .word hw
  plain_toList _ := rfl
  pretty_toList _ := rfl

/-- Every text can be read back, for it is quoted. -/
theorem text (s : String) : (text s).Readable where
  legible := .quoted _
  plain_toList _ := Text.quote_toList s
  pretty_toList _ := Text.quote_toList s

/-- Every path can be read back, for it is quoted. -/
theorem path (p : SourcePath) : (path p).Readable where
  legible := .quoted _
  plain_toList _ := p.quoted_toList
  pretty_toList _ := p.quoted_toList

/-- A wrapped value can be read back when the value can. -/
theorem variant (hname : IsName name.toList) (hpayload : payload.Readable) :
    (variant name payload).Readable where
  legible := .group (.inl hname) (List.forall_mem_singleton.2 hpayload.legible)
  plain_toList d := by
    rw [plain_variant, outline_variant, Outline.text_group, Layout.body_oneLine d fun _ => rfl]
    simp [hpayload.plain_toList (d + 1), Layout.padding, Bracket.opening, Bracket.closing]
  pretty_toList d := by
    rw [prettyAt_variant, outline_variant, Outline.text_group,
      block_toList .round d _ _ (List.cons_ne_nil _ _)]
    simp [hpayload.pretty_toList (d + 1), Bracket.opening, Bracket.closing]

/-- A list can be read back when its items can. Without items it stays on its line. -/
theorem list (hitems : ∀ item ∈ items, item.Readable) : (list items).Readable where
  legible := by
    rw [outline_list]
    refine .group (.inr ⟨rfl, rfl⟩) ?_
    rw [List.forall_mem_map]
    exact fun item hitem => (hitems item hitem).legible
  plain_toList d := by
    have htexts : (items.map plain).map String.toList =
        (items.map outline).map (Outline.text .oneLine (d + 1)) := by
      rw [List.map_map, List.map_map]
      exact List.map_congr_left fun item hitem => (hitems item hitem).plain_toList (d + 1)
    rw [plain_list, outline_list, Outline.text_group, ← htexts,
      Layout.body_oneLine d fun _ => rfl]
    simp [Layout.padding, Bracket.opening, Bracket.closing]
  pretty_toList d := by
    have htexts : (items.map (prettyAt (d + 1))).map String.toList =
        (items.map outline).map (Outline.text .manyLines (d + 1)) := by
      rw [List.map_map, List.map_map]
      exact List.map_congr_left fun item hitem => (hitems item hitem).pretty_toList (d + 1)
    rw [outline_list, Outline.text_group, ← htexts]
    -- On many lines an empty list is written without a break between its brackets.
    by_cases hnil : items = []
    · rw [hnil, prettyAt_nil]
      rfl
    · rw [prettyAt_list d hnil, block_toList .square d _ _ fun h => hnil (List.map_eq_nil_iff.1 h)]
      simp [Bracket.opening, Bracket.closing]

/-- A record can be read back when its values can. It has a field at least, since one without fields
would have a line of its own between its braces. -/
theorem record (hname : IsName name.toList) (hfields : fields ≠ [])
    (hlabels : ∀ f ∈ fields, IsName f.1.toList) (hvalues : ∀ f ∈ fields, f.2.Readable) :
    (record name fields false).Readable where
  legible := by
    rw [outline_record]
    refine .group (.inl hname) ?_
    rw [List.forall_mem_map]
    exact fun f hf => .labelled (hlabels f hf) (hvalues f hf).legible
  plain_toList d := by
    have htexts : (fields.map fun f => f.1 ++ ": " ++ f.2.plain).map String.toList =
        (fields.map fun f => Outline.labelled f.1.toList f.2.outline).map
          (Outline.text .oneLine (d + 1)) := by
      rw [List.map_map, List.map_map]
      apply List.map_congr_left
      intro f hf
      simp [(hvalues f hf).plain_toList (d + 1)]
    -- The blanks inside the braces are written because there is a field.
    have hsome : (fields.map fun f => f.1 ++ ": " ++ f.2.plain).map String.toList = [] →
        Layout.padding .curly = [] := by
      intro hnil
      exact absurd (List.map_eq_nil_iff.1 (List.map_eq_nil_iff.1 hnil)) hfields
    rw [plain_record, outline_record, Outline.text_group, ← htexts, Layout.body_oneLine d hsome]
    simp [Layout.padding, Bracket.opening, Bracket.closing]
  pretty_toList d := by
    have htexts : (fields.map fun f => f.1 ++ ": " ++ f.2.prettyAt (d + 1)).map String.toList =
        (fields.map fun f => Outline.labelled f.1.toList f.2.outline).map
          (Outline.text .manyLines (d + 1)) := by
      rw [List.map_map, List.map_map]
      apply List.map_congr_left
      intro f hf
      simp [(hvalues f hf).pretty_toList (d + 1)]
    have hsome : (fields.map fun f => f.1 ++ ": " ++ f.2.prettyAt (d + 1)) ≠ [] :=
      fun hnil => hfields (List.map_eq_nil_iff.1 hnil)
    rw [prettyAt_record, outline_record, Outline.text_group, ← htexts,
      block_toList .curly d _ _ hsome]
    simp [Bracket.opening, Bracket.closing]

/-- An optional value can be read back when the value can, if there is one. -/
theorem option {node? : Option Node} (h : ∀ node, node? = some node → node.Readable) :
    (Node.option node?).Readable := by
  cases node? with
  | none => exact .word (by decide)
  | some node => exact .variant (by decide) (h node rfl)

/-- Readable trees of one text, in either layout, have one outline. -/
theorem texts_eq_iff {a b : Node} (ha : a.Readable) (hb : b.Readable) :
    (a.plain = b.plain ↔ a.outline = b.outline) ∧
      (a.pretty = b.pretty ↔ a.outline = b.outline) := by
  rw [← String.toList_inj, ← String.toList_inj, pretty, pretty, ha.plain_toList 0,
    hb.plain_toList 0, ha.pretty_toList 0, hb.pretty_toList 0]
  exact ⟨⟨ha.legible.eq_of_text_eq hb.legible, fun h => by rw [h]⟩,
    ⟨ha.legible.eq_of_text_eq hb.legible, fun h => by rw [h]⟩⟩

end Readable

/-! ### What an outline shows -/

variable {name name' : String}

theorem outline_word_inj {v w : String} (h : (word v).outline = (word w).outline) : v = w :=
  String.toList_inj.1 (Outline.word.inj h)

/-- A text is known from its outline: a glyph for each character. -/
theorem outline_text_inj {r s : String} (h : (text r).outline = (text s).outline) : r = s :=
  String.toList_inj.1 (List.map_injective_iff.2 Sum.inl_injective (Outline.quoted.inj h))

theorem outline_path_inj {p q : SourcePath} (h : (path p).outline = (path q).outline) : p = q :=
  SourcePath.eq_of_glyphs_eq (Outline.quoted.inj h)

theorem outline_variant_inj {a b : Node}
    (h : (variant name a).outline = (variant name' b).outline) : a.outline = b.outline :=
  (List.cons.inj (Outline.group.inj h).2.2).1

/-- An optional value is known from its outline as far as its value is: no value looks like a
missing one. -/
theorem outline_option_inj {a b : Option Node} (h : (option a).outline = (option b).outline) :
    a.map outline = b.map outline := by
  cases a with
  | none =>
      cases b with
      | none => rfl
      | some b => cases h
  | some a =>
      cases b with
      | none => cases h
      | some b => exact congrArg some (outline_variant_inj h)

/-- A list is known from its outline as far as its items are. -/
theorem outline_list_inj {as bs : List Node} (h : (list as).outline = (list bs).outline) :
    as.map outline = bs.map outline := by
  rw [outline_list, outline_list, Outline.group.injEq] at h
  exact h.2.2

/-- Records of one outline have the same values, field by field. -/
theorem outline_record_inj {fields fields' : List (String × Node)} {elided elided' : Bool}
    (h : (record name fields elided).outline = (record name' fields' elided').outline) :
    fields.map (fun f => f.2.outline) = fields'.map (fun f => f.2.outline) := by
  rw [outline_record, outline_record, Outline.group.injEq] at h
  replace h := h.2.2
  induction fields generalizing fields' with
  | nil => rw [List.map_eq_nil_iff.1 h.symm]
  | cons f fields ih =>
      rcases fields' with _ | ⟨f', fields'⟩
      · cases h
      · obtain ⟨hfield, hfields⟩ := List.cons.inj h
        rw [List.map_cons, List.map_cons, ih hfields, (Outline.labelled.inj hfield).2]

end Node

end TypeRegistry.Debug

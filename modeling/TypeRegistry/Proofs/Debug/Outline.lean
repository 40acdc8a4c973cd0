import TypeRegistry.Debug.Node
import TypeRegistry.Proofs.Text.Quoted

/-!
# Reading debug text back

Debug text is made of words, quoted texts, labelled values and groups of parts between brackets. A
value can be told off the front of a text when something comes after it that does not go on with
it: the name in front is told by the next character, which also says what the name is the name of,
and the parts of a group are told one after the other. What stands between the parts is left to
the layout, as long as it is not taken for the end of the group nor for a part.

## Main definitions and statements

* `Outline`: what debug text shows of a value.
* `Layout`: what stands between the parts of a group; `Layout.oneLine`, `Layout.manyLines`.
* `Outline.Legible.readsOff`: in every layout, a value is told off the front of a text.
-/

namespace TypeRegistry.Debug

open Text (Glyph ReadsOff joined)

/-! ### Marks -/

/-- The brackets around the parts of a group. -/
inductive Bracket where
  | round
  | square
  | curly

/-- What opens a group. A record has a blank before its brace. -/
def Bracket.opening : Bracket → List Char
  | round => ['(']
  | square => ['[']
  | curly => [' ', '\x7b']

/-- What closes a group. -/
def Bracket.closing : Bracket → Char
  | round => ')'
  | square => ']'
  | curly => '\x7d'

/-- What may come after the name at the front of a value, and goes on with the value. -/
inductive Mark where
  /-- Opens a quoted text, which has no name in front. -/
  | quote
  /-- Ends a label. -/
  | colon
  | bracket (b : Bracket)

/-- What a mark consists of. -/
def Mark.opening : Mark → List Char
  | quote => ['"']
  | colon => [':', ' ']
  | bracket b => b.opening

/-- The characters of names. -/
def isNameChar (c : Char) : Bool :=
  c.isAlpha || c == '_'

/-- A name can stand at the front of a value. -/
def IsName (name : List Char) : Prop :=
  name ≠ [] ∧ ∀ c ∈ name, isNameChar c

/-- Whether a name is one is decidable, by a look at each of its characters. -/
instance (name : List Char) : Decidable (IsName name) :=
  decidable_of_iff ((!name.isEmpty && name.all isNameChar) = true) (by simp [IsName])

/-- A text that begins with a value. -/
def StartsValue (x : List Char) : Prop :=
  ∃ c, x.head? = some c ∧ (isNameChar c ∨ c = '"' ∨ c = '[')

/-- A text that does not go on with the value before it. -/
structure EndsValue (x : List Char) : Prop where
  notName : ∀ c, x.head? = some c → ¬isNameChar c
  notMark : ∀ m : Mark, ¬m.opening <+: x

theorem endsValue_nil : EndsValue [] := by
  refine ⟨nofun, ?_⟩
  rintro (_ | _ | _ | _ | _) <;> decide

/-- No mark goes on with a name. -/
theorem Mark.not_isNameChar (m : Mark) (x : List Char) :
    ∀ c, (m.opening ++ x).head? = some c → ¬isNameChar c := by
  rcases m with _ | _ | _ | _ | _ <;> rintro c ⟨⟩ <;> decide

/-- A mark is told off the front of a text. -/
theorem Mark.eq_of_append_eq {m n : Mark} {x y : List Char} (h : m.opening ++ x = n.opening ++ y) :
    m = n ∧ x = y := by
  rcases m with _ | _ | _ | _ | _ <;> rcases n with _ | _ | _ | _ | _ <;> cases h <;>
    exact ⟨rfl, rfl⟩

/-! ### Layouts -/

/-- What stands around the parts of a group, for a group that starts at the given depth. -/
structure Layout where
  /-- What is between the opening bracket and the first part. -/
  lead : Bracket → Nat → List Char
  /-- What is between two parts. -/
  sep : Nat → List Char
  /-- What is between the last part and the closing bracket. -/
  trail : Bracket → Nat → List Char
  sep_ends : ∀ d x, EndsValue (sep d ++ x)
  trail_ends : ∀ b d x, EndsValue (trail b d ++ b.closing :: x)
  /-- The end of a group is not taken for one more part. -/
  trail_ne_sep : ∀ b d x y, trail b d ++ b.closing :: x ≠ sep d ++ y
  trail_ne_value : ∀ b d x, ¬StartsValue (trail b d ++ b.closing :: x)
  /-- An empty group is not taken for one that has parts. -/
  closing_ne_lead : ∀ b d x y, StartsValue y → b.closing :: x ≠ lead b d ++ y

namespace Layout

/-- What follows a value begins with a character that is neither part of a name nor of a mark. -/
theorem endsValue_cons {c : Char} (hname : ¬isNameChar c)
    (hmark : ∀ m : Mark, m.opening.head? ≠ some c) (x : List Char) : EndsValue (c :: x) := by
  refine ⟨?_, ?_⟩
  · rintro _ ⟨⟩
    exact hname
  · rintro m ⟨rest, hrest⟩
    apply hmark m
    have hhead := congrArg List.head? hrest
    rcases m with _ | _ | _ | _ | _ <;> exact hhead

theorem endsValue_comma (x : List Char) : EndsValue (',' :: x) :=
  endsValue_cons (by decide) (by rintro (_ | _ | _ | _ | _) <;> decide) x

theorem endsValue_closing (b : Bracket) (x : List Char) : EndsValue (b.closing :: x) := by
  cases b <;> exact endsValue_cons (by decide) (by rintro (_ | _ | _ | _ | _) <;> decide) x

/-- A blank ends a value unless a brace opens after it. -/
theorem endsValue_blank (b : Bracket) (x : List Char) : EndsValue (' ' :: b.closing :: x) := by
  refine ⟨?_, ?_⟩
  · rintro _ ⟨⟩
    decide
  · rintro (_ | _ | _ | _ | _) ⟨rest, hrest⟩ <;> cases b <;> cases hrest

/-- A value starts with a name, a quote or a square bracket, and with nothing else. -/
theorem not_startsValue_cons {c : Char} (hc : ¬(isNameChar c ∨ c = '"' ∨ c = '[')) (x : List Char) :
    ¬StartsValue (c :: x) := by
  rintro ⟨_, ⟨⟩, h⟩
  exact hc h

/-- No value starts with a closing bracket. -/
theorem not_startsValue_closing (b : Bracket) (x : List Char) : ¬StartsValue (b.closing :: x) := by
  cases b <;> exact not_startsValue_cons (by decide) x

/-- Only braces have blanks inside. -/
def padding : Bracket → List Char
  | .round | .square => []
  | .curly => [' ']

/-- All parts on one line. -/
def oneLine : Layout where
  lead b _ := padding b
  sep _ := [',', ' ']
  trail b _ := padding b
  sep_ends _ x := endsValue_comma (' ' :: x)
  trail_ends b _ x := by
    cases b with
    | curly => exact endsValue_blank .curly x
    | round | square => exact endsValue_closing _ x
  trail_ne_sep b _ x y := by
    cases b <;> rintro ⟨⟩
  trail_ne_value b _ x := by
    cases b with
    | curly => exact not_startsValue_cons (by decide) _
    | round | square => exact not_startsValue_closing _ x
  closing_ne_lead b _ x y hy h := by
    cases b with
    | curly => cases h
    | round | square =>
        obtain rfl : y = _ := h.symm
        exact not_startsValue_closing _ x hy

/-- The blanks before a line at the given depth. -/
def blanks (d : Nat) : List Char :=
  List.replicate (4 * d) ' '

/-- A deeper line has four more blanks. -/
theorem blanks_succ (d : Nat) : blanks (d + 1) = blanks d ++ [' ', ' ', ' ', ' '] := by
  rw [blanks, Nat.mul_succ, List.replicate_add]
  rfl

/-- Every part on a line of its own, one level deeper than its group. -/
def manyLines : Layout where
  lead _ d := '\n' :: blanks (d + 1)
  sep d := ',' :: '\n' :: blanks (d + 1)
  trail _ d := ',' :: '\n' :: blanks d
  sep_ends _ _ := endsValue_comma _
  trail_ends _ _ _ := endsValue_comma _
  trail_ne_sep b d x y h := by
    -- The line of the closing bracket is not as deep as those of the parts.
    have hline := (List.cons.inj (List.cons.inj h).2).2
    rw [blanks_succ, List.append_eq, List.append_eq, List.append_assoc] at hline
    have hblank := List.append_cancel_left hline
    cases b <;> cases hblank
  trail_ne_value _ _ _ := not_startsValue_cons (by decide) _
  closing_ne_lead b _ x y _ h := by
    cases b <;> cases h

@[simp]
theorem manyLines_lead (b : Bracket) (d : Nat) : manyLines.lead b d = '\n' :: blanks (d + 1) := rfl

@[simp]
theorem manyLines_sep (d : Nat) : manyLines.sep d = ',' :: '\n' :: blanks (d + 1) := rfl

@[simp]
theorem manyLines_trail (b : Bracket) (d : Nat) : manyLines.trail b d = ',' :: '\n' :: blanks d :=
  rfl

/-- The parts of a group, within its brackets. -/
def body (L : Layout) (b : Bracket) (d : Nat) : List (List Char) → List Char
  | [] => []
  | texts => L.lead b d ++ ((L.sep d).intercalate texts ++ L.trail b d)

end Layout

/-! ### Outlines -/

/-- What debug text shows of a value. -/
inductive Outline where
  | word (w : List Char)
  | quoted (gs : List Glyph)
  | labelled (label : List Char) (value : Outline)
  | group (name : List Char) (b : Bracket) (parts : List Outline)

namespace Outline

mutual

/-- The text of a value that starts at depth `d`. -/
def text (L : Layout) (d : Nat) : Outline → List Char
  | word w => w
  | quoted gs => '"' :: (gs.flatMap Glyph.text ++ ['"'])
  | labelled label value => label ++ (':' :: ' ' :: value.text L d)
  | group name b parts =>
    name ++ (b.opening ++ (L.body b d (partTexts L (d + 1) parts) ++ [b.closing]))

/-- The texts of the parts of a group. -/
def partTexts (L : Layout) (d : Nat) : List Outline → List (List Char)
  | [] => []
  | o :: os => o.text L d :: partTexts L d os

end

variable {L : Layout} {d : Nat} {a b : Outline} {x y : List Char}

theorem partTexts_eq_map (os : List Outline) : partTexts L d os = os.map (text L d) := by
  induction os with
  | nil => rfl
  | cons o os ih => exact congrArg (o.text L d :: ·) ih

@[simp]
theorem text_labelled (label : List Char) (value : Outline) :
    (labelled label value).text L d = label ++ (':' :: ' ' :: value.text L d) := rfl

@[simp]
theorem text_group (name : List Char) (b : Bracket) (parts : List Outline) :
    (group name b parts).text L d =
      name ++ (b.opening ++ (L.body b d (parts.map (text L (d + 1))) ++ [b.closing])) := by
  rw [← partTexts_eq_map]
  rfl

/-- The name at the front of a value. -/
def front : Outline → List Char
  | word w => w
  | quoted _ => []
  | labelled label _ => label
  | group name _ _ => name

/-- The mark after the name, if the value goes on. -/
def mark? : Outline → Option Mark
  | word _ => none
  | quoted _ => some .quote
  | labelled _ _ => some .colon
  | group _ b _ => some (.bracket b)

/-- What comes after the name and the mark. -/
def inner (L : Layout) (d : Nat) : Outline → List Char
  | word _ => []
  | quoted gs => gs.flatMap Glyph.text ++ ['"']
  | labelled _ value => value.text L d
  | group _ b parts => L.body b d (parts.map (text L (d + 1))) ++ [b.closing]

/-- A value is its name, its mark and what is inside. -/
theorem text_eq (a : Outline) :
    a.text L d = a.front ++ (a.mark?.elim [] Mark.opening ++ a.inner L d) := by
  cases a with
  | word w => exact (List.append_nil w).symm
  | quoted _ | labelled _ _ => rfl
  | group name b parts => exact text_group name b parts

/-- The names in a value can be told off: only quoted texts and lists have none in front. -/
inductive Legible : Outline → Prop
  | word {w : List Char} (hw : IsName w) : Legible (word w)
  | quoted (gs : List Glyph) : Legible (quoted gs)
  | labelled {label : List Char} {value : Outline} (hlabel : IsName label)
      (hvalue : Legible value) : Legible (labelled label value)
  | group {name : List Char} {b : Bracket} {parts : List Outline}
      (hname : IsName name ∨ name = [] ∧ b = .square) (hparts : ∀ p ∈ parts, Legible p) :
      Legible (group name b parts)

/-- The name at the front of a legible outline is made of name characters. -/
theorem Legible.isNameChar_of_mem_front (ha : a.Legible) : ∀ c ∈ a.front, isNameChar c := by
  cases ha with
  | word hname | labelled hname _ => exact hname.2
  | quoted gs => exact List.forall_mem_nil _
  | group hname _ =>
      rcases hname with hname | ⟨rfl, -⟩
      · exact hname.2
      · exact List.forall_mem_nil _

/-- A name begins a value, whatever comes after it. -/
theorem startsValue_name {name : List Char} (hname : IsName name) (x : List Char) :
    StartsValue (name ++ x) := by
  obtain ⟨hne, hchars⟩ := hname
  obtain ⟨c, rest, rfl⟩ := List.exists_cons_of_ne_nil hne
  exact ⟨c, rfl, .inl (hchars c List.mem_cons_self)⟩

/-- The text of a legible outline starts as a value does. -/
theorem Legible.startsValue (ha : a.Legible) (x : List Char) : StartsValue (a.text L d ++ x) := by
  cases ha with
  | word hname => exact startsValue_name hname x
  | quoted gs => exact ⟨'"', rfl, .inr (.inl rfl)⟩
  | labelled hname _ =>
      rw [text_labelled, List.append_assoc]
      exact startsValue_name hname _
  | group hname _ =>
      rw [text_group, List.append_assoc]
      rcases hname with hname | ⟨rfl, rfl⟩
      · exact startsValue_name hname _
      · exact ⟨'[', rfl, .inr (.inr rfl)⟩

/-- The name at the front ends before what comes after it. -/
theorem not_isNameChar_of_head? (a : Outline) (hx : EndsValue x) :
    ∀ c, (a.mark?.elim [] Mark.opening ++ (a.inner L d ++ x)).head? = some c → ¬isNameChar c := by
  cases hmark : a.mark? with
  | some m => exact m.not_isNameChar _
  | none =>
      cases a with
      | word w => exact hx.notName
      | quoted _ | labelled _ _ | group _ _ _ => cases hmark

/-- Values of one text have one name and one mark. -/
theorem Legible.eq_of_append_eq (ha : a.Legible) (hb : b.Legible) (hx : EndsValue x)
    (hy : EndsValue y) (h : a.text L d ++ x = b.text L d ++ y) :
    a.front = b.front ∧ a.mark? = b.mark? ∧ a.inner L d ++ x = b.inner L d ++ y := by
  rw [text_eq, text_eq] at h
  simp only [List.append_assoc] at h
  obtain ⟨hfront, hrest⟩ := Text.eq_of_append_eq_of_forall ha.isNameChar_of_mem_front
    hb.isNameChar_of_mem_front (a.not_isNameChar_of_head? hx) (b.not_isNameChar_of_head? hy) h
  refine ⟨hfront, ?_⟩
  have hword : ∀ o : Outline, o.mark? = none → o.inner L d = [] := by
    rintro (_ | _ | _ | _) ⟨⟩
    rfl
  -- What ends a word does not begin with a mark.
  cases hma : a.mark? with
  | none =>
      cases hmb : b.mark? with
      | none =>
          rw [hma, hmb] at hrest
          exact ⟨rfl, hrest⟩
      | some n =>
          rw [hma, hmb, hword a hma] at hrest
          exact absurd ⟨_, hrest.symm⟩ (hx.notMark n)
  | some m =>
      cases hmb : b.mark? with
      | none =>
          rw [hma, hmb, hword b hmb] at hrest
          exact absurd ⟨_, hrest⟩ (hy.notMark m)
      | some n =>
          rw [hma, hmb] at hrest
          obtain ⟨rfl, hinner⟩ := Mark.eq_of_append_eq hrest
          exact ⟨rfl, hinner⟩

/-- A group with parts is told from an empty one. -/
theorem body_cons (L : Layout) (b : Bracket) (d : Nat) (p : Outline) (ps : List Outline) :
    L.body b d ((p :: ps).map (text L (d + 1))) =
      L.lead b d ++ (joined (L.sep d) (text L (d + 1)) (p :: ps) ++ L.trail b d) := rfl

/-- The parts of a group are told off by its closing bracket, when each part is told off. -/
theorem eq_of_body_append_eq {b : Bracket} {ps qs : List Outline}
    (hparts : ∀ p ∈ ps, ReadsOff (text L (d + 1)) Legible EndsValue p)
    (hps : ∀ p ∈ ps, p.Legible) (hqs : ∀ q ∈ qs, q.Legible)
    (h : L.body b d (ps.map (text L (d + 1))) ++ b.closing :: x =
      L.body b d (qs.map (text L (d + 1))) ++ b.closing :: y) : ps = qs ∧ x = y := by
  -- An empty group closes at once, where a group with parts goes on with a value.
  rcases ps with _ | ⟨p, ps⟩ <;> rcases qs with _ | ⟨q, qs⟩
  · exact ⟨rfl, (List.cons.inj h).2⟩
  · rw [body_cons, List.append_assoc, List.append_assoc] at h
    obtain ⟨rest, hrest⟩ := Text.exists_joined_cons (L.sep d) (text L (d + 1)) q qs
    rw [hrest, List.append_assoc] at h
    exact absurd h (L.closing_ne_lead b d x _ ((hqs q List.mem_cons_self).startsValue _))
  · rw [body_cons, List.append_assoc, List.append_assoc] at h
    obtain ⟨rest, hrest⟩ := Text.exists_joined_cons (L.sep d) (text L (d + 1)) p ps
    rw [hrest, List.append_assoc] at h
    exact absurd h.symm (L.closing_ne_lead b d y _ ((hps p List.mem_cons_self).startsValue _))
  · rw [body_cons, body_cons] at h
    simp only [List.append_assoc] at h
    have hjoined := List.append_cancel_left h
    -- The text after the last part neither goes on with a separator nor with a value.
    have hreads : ReadsOff (joined (L.sep d) (text L (d + 1))) (fun rs => ∀ r ∈ rs, Legible r)
        (fun z => ∃ rest, z = L.trail b d ++ b.closing :: rest) (p :: ps) := by
      apply Text.readsOff_joined hparts hps (L.sep_ends d)
      · rintro z ⟨rest, rfl⟩
        exact L.trail_ends b d rest
      · rintro z ⟨rest, hrest⟩
        exact L.trail_ne_sep b d rest z hrest.symm
      · rintro r z hr ⟨rest, hrest⟩
        exact L.trail_ne_value b d rest (hrest ▸ hr.startsValue z)
    obtain ⟨hsame, hrest⟩ := hreads _ _ _ hqs ⟨x, rfl⟩ ⟨y, rfl⟩ hjoined
    exact ⟨hsame, (List.cons.inj (List.append_cancel_left hrest)).2⟩

/-- In every layout, a legible value is told off the front of a text. -/
theorem Legible.readsOff (ha : a.Legible) (L : Layout) (d : Nat) :
    ReadsOff (text L d) Legible EndsValue a := by
  -- For every depth, since the parts of a group stand one deeper than the group. The mark tells the
  -- four forms apart, the name is in front of it, and the rest is read by the form.
  induction ha generalizing d with
  | @word w hw =>
      intro b x y hb hx hy h
      obtain ⟨hfront, hmark, hinner⟩ := (word hw).eq_of_append_eq hb hx hy h
      cases hb with
      | word _ => exact ⟨congrArg Outline.word hfront, hinner⟩
      | quoted _ | labelled _ _ | group _ _ => cases hmark
  | quoted gs =>
      intro b x y hb hx hy h
      obtain ⟨-, hmark, hinner⟩ := (quoted gs).eq_of_append_eq hb hx hy h
      cases hb with
      | quoted hs =>
          rw [inner, inner, List.append_assoc, List.append_assoc] at hinner
          obtain ⟨rfl, hrest⟩ :=
            Text.readsOff_glyphs gs hs _ _ trivial ⟨x, rfl⟩ ⟨y, rfl⟩ hinner
          exact ⟨rfl, (List.cons.inj hrest).2⟩
      | word _ | labelled _ _ | group _ _ => cases hmark
  | @labelled label value hlabel hvalue ih =>
      intro b x y hb hx hy h
      obtain ⟨hfront, hmark, hinner⟩ := (labelled hlabel hvalue).eq_of_append_eq hb hx hy h
      cases hb with
      | labelled _ hvalue' =>
          obtain ⟨rfl, hrest⟩ := ih d _ _ _ hvalue' hx hy hinner
          exact ⟨congrArg (Outline.labelled · value) hfront, hrest⟩
      | word _ | quoted _ | group _ _ => cases hmark
  | @group name b parts hname hparts ih =>
      intro o x y ho hx hy h
      obtain ⟨hfront, hmark, hinner⟩ := (group hname hparts).eq_of_append_eq ho hx hy h
      cases ho with
      | group _ hparts' =>
          cases hmark
          rw [inner, inner, List.append_assoc, List.append_assoc] at hinner
          obtain ⟨rfl, hrest⟩ :=
            eq_of_body_append_eq (fun p hp => ih p hp (d + 1)) hparts hparts' hinner
          exact ⟨congrArg (Outline.group · b parts) hfront, hrest⟩
      | word _ | quoted _ | labelled _ _ => cases hmark

/-- Values of one text are one value. -/
theorem Legible.eq_of_text_eq (ha : a.Legible) (hb : b.Legible)
    (h : a.text L d = b.text L d) : a = b := by
  refine (ha.readsOff L d b [] [] hb endsValue_nil endsValue_nil ?_).1
  rw [List.append_nil, List.append_nil, h]

end Outline

end TypeRegistry.Debug

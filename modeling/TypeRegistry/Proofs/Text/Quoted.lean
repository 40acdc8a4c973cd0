import TypeRegistry.Proofs.Text.Lossy
import TypeRegistry.Proofs.Text.Reading
import TypeRegistry.SourcePath

/-!
# Reading quoted text back

Between the quotes of a text stand the written forms of its characters, and between those of a path
also the written forms of bytes that are no characters. A written form is told off the front of
what follows it: after a backslash the next character says which of the forms it is, a code point
goes up to its closing brace, and a byte has two digits. No form begins with a quote, so the first
one on its own ends the text.

## Main definitions and statements

* `Text.Glyph`: a character, or a byte that is none.
* `Text.quote_eq_iff`: the texts that stay as they are between their quotes.
* `Text.readsOff_glyph`, `Text.readsOff_glyphs`: one written form, and all up to the closing quote.
* `SourcePath.glyphs`, `SourcePath.eq_of_glyphs_eq`: what the quoted form of a path shows is
  its bytes.
-/

namespace TypeRegistry

namespace Text

/-! ### Hexadecimal digits -/

theorem digitChar_inj_of_lt : ∀ i < 16, ∀ j < 16, Nat.digitChar i = Nat.digitChar j → i = j := by
  decide

theorem toUpper_digitChar_inj_of_lt :
    ∀ i < 16, ∀ j < 16, (Nat.digitChar i).toUpper = (Nat.digitChar j).toUpper → i = j := by
  decide

/-- The last digit, and the digits before it. -/
theorem toDigits_sixteen (n : Nat) :
    Nat.toDigits 16 n =
      (if n < 16 then [] else Nat.toDigits 16 (n / 16)) ++ [Nat.digitChar (n % 16)] := by
  split_ifs with hsmall
  · rw [Nat.toDigits_of_lt_base hsmall, Nat.mod_eq_of_lt hsmall, List.nil_append]
  · exact Nat.toDigits_of_base_le (by decide) (by omega)

/-- Numbers are told apart by their digits. -/
theorem toDigits_sixteen_inj {n m : Nat} (h : Nat.toDigits 16 n = Nat.toDigits 16 m) : n = m := by
  -- On the number, by its last digit. The digits before it are those of a sixteenth, or there are
  -- none for both.
  induction n using Nat.strongRecOn generalizing m with
  | ind n ih =>
      rw [toDigits_sixteen n, toDigits_sixteen m] at h
      obtain ⟨hfront, hlast⟩ := List.append_inj' h rfl
      have hmod := digitChar_inj_of_lt _ (Nat.mod_lt n (by decide)) _ (Nat.mod_lt m (by decide))
        (List.cons.inj hlast).1
      split_ifs at hfront with hn hm hm
      · rw [← Nat.mod_eq_of_lt hn, hmod, Nat.mod_eq_of_lt hm]
      · exact absurd hfront.symm Nat.toDigits_ne_nil
      · exact absurd hfront Nat.toDigits_ne_nil
      · have hdiv := ih (n / 16) (by omega) hfront
        omega

/-- No digit is a closing brace. -/
theorem brace_notMem_toDigits (n : Nat) : '\x7d' ∉ Nat.toDigits 16 n := by
  have hdigit : ∀ i < 16, '\x7d' ≠ Nat.digitChar i := by decide
  induction n using Nat.strongRecOn with
  | ind n ih =>
      rw [toDigits_sixteen, List.mem_append, List.mem_singleton]
      rintro (hfront | hlast)
      · split_ifs at hfront with hsmall
        · cases hfront
        · exact ih (n / 16) (by omega) hfront
      · exact hdigit _ (Nat.mod_lt n (by decide)) hlast

/-! ### Written forms -/

/-- What has a written form of its own inside quotes: a character, or a byte that is none. -/
abbrev Glyph := Char ⊕ UInt8

/-- The written form of a character or byte. -/
def Glyph.text : Glyph → List Char :=
  Sum.elim escape escapeByte

/-- The four sorts of written forms. -/
inductive Written : Glyph → List Char → Prop
  | letter {c letter : Char} (h : shortEscape? c = some letter) : Written (.inl c) ['\\', letter]
  | visible {c : Char} (h : shortEscape? c = none) : Written (.inl c) [c]
  | codePoint (c : Char) :
      Written (.inl c) ('\\' :: 'u' :: '\x7b' :: (Nat.toDigits 16 c.toNat ++ ['\x7d']))
  | byte (b : UInt8) : Written (.inr b) (escapeByte b)

/-- Every written form is of one of the four sorts. -/
theorem written_text (g : Glyph) : Written g g.text := by
  rcases g with c | b
  · rw [Glyph.text, Sum.elim_inl, escape]
    split
    case h_1 letter hletter => exact .letter hletter
    case h_2 hnone =>
      split_ifs
      · exact .visible hnone
      · exact .codePoint c
  · exact .byte b

/-! ### What stays as it is -/

/-- A character is written as itself, or as two characters and more. -/
theorem escape_eq_singleton_or (c : Char) : escape c = [c] ∨ 2 ≤ (escape c).length := by
  have hwritten : Written (.inl c) (escape c) := written_text (.inl c)
  generalize escape c = text at hwritten
  cases hwritten with
  | visible => exact .inl rfl
  | letter | codePoint => exact .inr (by simp)

/-- No character is left out between quotes. -/
theorem length_le_length_flatMap_escape (cs : List Char) :
    cs.length ≤ (cs.flatMap escape).length := by
  induction cs with
  | nil => exact Nat.zero_le _
  | cons c cs ih =>
      rw [List.flatMap_cons, List.length_append, List.length_cons]
      rcases escape_eq_singleton_or c with hself | hlonger
      · rw [hself, List.length_singleton]
        omega
      · omega

/-- Characters stay as they are when each of them does: a longer form is not made up for later. -/
theorem flatMap_escape_eq_self_iff (cs : List Char) :
    cs.flatMap escape = cs ↔ ∀ c ∈ cs, escape c = [c] := by
  induction cs with
  | nil => simp
  | cons c cs ih =>
      rw [List.flatMap_cons, List.forall_mem_cons, ← ih]
      constructor
      · intro h
        rcases escape_eq_singleton_or c with hself | hlonger
        · rw [hself] at h
          exact ⟨hself, (List.cons.inj h).2⟩
        · -- A longer form would make the whole longer, as no other character is left out.
          have hlength := congrArg List.length h
          rw [List.length_append, List.length_cons] at hlength
          have := length_le_length_flatMap_escape cs
          omega
      · rintro ⟨hself, hrest⟩
        rw [hself, hrest]
        rfl

/-- A character stays as it is when it has no short escape and is seen on its own. -/
theorem escape_eq_singleton_iff (c : Char) :
    escape c = [c] ↔ shortEscape? c = none ∧ isVisible c = true := by
  rw [escape]
  split
  case h_1 letter hletter => simp [hletter]
  case h_2 hnone =>
      split_ifs with hvisible
      · simp [hnone, hvisible]
      · simp [hvisible]

/-- A text stays as it is between its quotes exactly when none of its characters has a short escape
or lies in a range of the tables of characters that are not seen on their own. -/
theorem quote_eq_iff (s : String) :
    quote s = "\"" ++ s ++ "\"" ↔ ∀ c ∈ s.toList, shortEscape? c = none ∧
      ¬∃ r ∈ unprintable ++ combiningMark, r.1 ≤ c.toNat ∧ c.toNat ≤ r.2 := by
  -- The quotes stand on both sides, so the characters between them are compared.
  have htext : quote s = "\"" ++ s ++ "\"" ↔ s.toList.flatMap escape = s.toList := by
    rw [← String.toList_inj, quote, enclose, String.toList_ofList, String.toList_append,
      String.toList_append]
    have hquote : "\"".toList = ['"'] := rfl
    rw [hquote, List.append_assoc, List.singleton_append, List.cons_inj_right,
      List.append_left_inj]
  rw [htext, flatMap_escape_eq_self_iff]
  simp only [escape_eq_singleton_iff, isVisible_iff]

/-! ### Telling written forms apart -/

/-- The letter after a backslash is not the mark of a longer form. -/
theorem ne_of_shortEscape?_eq_some {c letter : Char} (h : shortEscape? c = some letter) :
    letter ≠ 'u' ∧ letter ≠ 'x' := by
  unfold shortEscape? at h
  split at h <;> cases h <;> decide

/-- The letter after a backslash is that of one character. -/
theorem shortEscape?_inj {c d letter : Char} (hc : shortEscape? c = some letter)
    (hd : shortEscape? d = some letter) : c = d := by
  unfold shortEscape? at hc hd
  split at hc <;> cases hc <;> split at hd <;> cases hd <;> rfl

/-- A character that stands for itself is neither a quote nor a backslash. -/
theorem ne_of_shortEscape?_eq_none {c : Char} (h : shortEscape? c = none) : c ≠ '"' ∧ c ≠ '\\' := by
  constructor <;> rintro rfl <;> cases h

/-- Bytes are told apart by their written forms: two digits are a byte. -/
theorem escapeByte_inj {b c : UInt8} (h : escapeByte b = escapeByte c) : b = c := by
  obtain ⟨hhigh, hrest⟩ := List.cons.inj (List.cons.inj (List.cons.inj h).2).2
  have hb := b.toNat_lt
  have hc := c.toNat_lt
  -- The two digits are the quotient and the rest by sixteen.
  have hdiv := toUpper_digitChar_inj_of_lt _ (by omega) _ (by omega) hhigh
  have hmod := toUpper_digitChar_inj_of_lt _ (Nat.mod_lt _ (by decide)) _
    (Nat.mod_lt _ (by decide)) (List.cons.inj hrest).1
  rw [← UInt8.toNat_inj]
  omega

/-- Of two glyphs whose written forms stand at one place, both are the same. -/
theorem Written.eq_of_append_eq {g h : Glyph} {v w x y : List Char} (hg : Written g v)
    (hh : Written h w) (heq : v ++ x = w ++ y) : g = h ∧ x = y := by
  -- The first two characters tell the sorts apart.
  cases hg with
  | @letter c letter hletter =>
      obtain ⟨hu, hx⟩ := ne_of_shortEscape?_eq_some hletter
      cases hh with
      | letter hletter' =>
          obtain ⟨hsame, hrest⟩ := List.cons.inj (List.cons.inj heq).2
          subst hsame
          exact ⟨congrArg Sum.inl (shortEscape?_inj hletter hletter'), hrest⟩
      | visible hnone =>
          exact absurd (List.cons.inj heq).1.symm (ne_of_shortEscape?_eq_none hnone).2
      | codePoint d => exact absurd (List.cons.inj (List.cons.inj heq).2).1 hu
      | byte b => exact absurd (List.cons.inj (List.cons.inj heq).2).1 hx
  | @visible c hnone =>
      obtain ⟨-, hbackslash⟩ := ne_of_shortEscape?_eq_none hnone
      cases hh with
      | visible _ =>
          obtain ⟨rfl, hrest⟩ := List.cons.inj heq
          exact ⟨rfl, hrest⟩
      | letter _ | codePoint _ | byte _ => exact absurd (List.cons.inj heq).1 hbackslash
  | codePoint c =>
      cases hh with
      | letter hletter =>
          exact absurd (List.cons.inj (List.cons.inj heq).2).1.symm
            (ne_of_shortEscape?_eq_some hletter).1
      | visible hnone =>
          exact absurd (List.cons.inj heq).1.symm (ne_of_shortEscape?_eq_none hnone).2
      | codePoint d =>
          have hdigits := (List.cons.inj (List.cons.inj (List.cons.inj heq).2).2).2
          rw [List.append_eq, List.append_eq, List.append_assoc, List.append_assoc] at hdigits
          obtain ⟨hsame, hrest⟩ := eq_of_append_cons_eq (brace_notMem_toDigits _)
            (brace_notMem_toDigits _) hdigits
          have hchar : c = d := by
            rw [← Char.ofNat_toNat c, toDigits_sixteen_inj hsame, Char.ofNat_toNat]
          exact ⟨congrArg Sum.inl hchar, hrest⟩
      | byte b => exact absurd (List.cons.inj (List.cons.inj heq).2).1 (by decide)
  | byte b =>
      cases hh with
      | letter hletter =>
          exact absurd (List.cons.inj (List.cons.inj heq).2).1.symm
            (ne_of_shortEscape?_eq_some hletter).2
      | visible hnone =>
          exact absurd (List.cons.inj heq).1.symm (ne_of_shortEscape?_eq_none hnone).2
      | codePoint d => exact absurd (List.cons.inj (List.cons.inj heq).2).1 (by decide)
      | byte c =>
          obtain ⟨hbytes, hrest⟩ := List.append_inj heq rfl
          exact ⟨congrArg Sum.inr (escapeByte_inj hbytes), hrest⟩

/-- A glyph is told off by its written form, whatever comes after it. -/
theorem readsOff_glyph (g : Glyph) :
    ReadsOff Glyph.text (fun _ => True) (fun _ => True) g :=
  fun h _ _ _ _ _ heq => (written_text g).eq_of_append_eq (written_text h) heq

/-- The closing quote is not taken for a glyph. -/
theorem Written.ne_quote_cons {g : Glyph} {w x rest : List Char} (hg : Written g w) :
    w ++ x ≠ '"' :: rest := by
  intro heq
  cases hg with
  | visible hnone => exact (ne_of_shortEscape?_eq_none hnone).1 (List.cons.inj heq).1
  | letter _ | codePoint _ | byte _ => cases (List.cons.inj heq).1

/-- A text that goes on with the closing quote. -/
def EndsQuoted (x : List Char) : Prop :=
  ∃ rest, x = '"' :: rest

/-- What is between quotes is told off by the closing quote. -/
theorem readsOff_glyphs (gs : List Glyph) :
    ReadsOff (List.flatMap Glyph.text) (fun _ => True) EndsQuoted gs := by
  have hends : ∀ g x, True → ¬EndsQuoted (Glyph.text g ++ x) := by
    rintro g x - ⟨rest, hrest⟩
    exact (written_text g).ne_quote_cons hrest
  intro hs x y _ hx hy heq
  exact readsOff_flatMap (fun g _ => readsOff_glyph g) (fun _ _ => trivial) hends hs x y
    (fun _ _ => trivial) hx hy heq

/-- The quoted form shows the characters of a text. -/
theorem quote_toList (s : String) :
    (quote s).toList = '"' :: ((s.toList.map Sum.inl).flatMap Glyph.text ++ ['"']) := by
  rw [quote, enclose, String.toList_ofList, List.flatMap_map]
  rfl

end Text

open Text (Glyph)

namespace Text.Utf8

/-- The glyphs of a piece: a character, or its bytes one by one. -/
def Piece.glyphs : Piece → List Glyph
  | scalar c => [.inl c]
  | illFormed bytes => bytes.map .inr

/-- The bytes that a glyph stands for. -/
def glyphBytes : Glyph → List UInt8 :=
  Sum.elim String.utf8EncodeChar List.singleton

/-- The glyphs of a piece stand for its bytes. -/
theorem Piece.flatMap_glyphBytes (p : Piece) : p.glyphs.flatMap glyphBytes = p.bytes := by
  cases p with
  | scalar c => exact List.append_nil _
  | illFormed bytes =>
      rw [glyphs, List.flatMap_map]
      exact List.flatMap_singleton' bytes

/-- The written forms of the glyphs of a piece are that of the piece. -/
theorem Piece.flatMap_text (p : Piece) :
    p.glyphs.flatMap Glyph.text = SourcePath.escapePiece p := by
  cases p with
  | scalar c => exact List.append_nil _
  | illFormed bytes =>
      rw [glyphs, List.flatMap_map]
      rfl

end Text.Utf8

namespace SourcePath

/-- What the quoted form of a path shows. -/
def glyphs (p : SourcePath) : List Glyph :=
  (Text.Utf8.pieces p.bytes).flatMap Text.Utf8.Piece.glyphs

/-- The bytes of a path are those of its glyphs. -/
theorem flatMap_glyphBytes (p : SourcePath) :
    p.glyphs.flatMap Text.Utf8.glyphBytes = p.bytes := by
  rw [glyphs, List.flatMap_assoc]
  simp only [Text.Utf8.Piece.flatMap_glyphBytes]
  exact (Text.Utf8.splits_pieces p.bytes).flatMap_bytes

/-- A path is known from its glyphs, for these stand for its bytes. -/
theorem eq_of_glyphs_eq {p q : SourcePath} (h : p.glyphs = q.glyphs) : p = q := by
  have hbytes : p.bytes = q.bytes := by
    rw [← p.flatMap_glyphBytes, h, q.flatMap_glyphBytes]
  cases p
  cases q
  cases hbytes
  rfl

/-- The quoted form shows the glyphs of a path. -/
theorem quoted_toList (p : SourcePath) :
    p.quoted.toList = '"' :: (p.glyphs.flatMap Glyph.text ++ ['"']) := by
  rw [quoted, Text.enclose, String.toList_ofList, glyphs, List.flatMap_assoc]
  simp only [Text.Utf8.Piece.flatMap_text]

end SourcePath

end TypeRegistry

import Mathlib.Data.List.Infix
import TypeRegistry.Proofs.Text.Encoding

/-!
# Characters and ill-formed runs

Reading starts anew before and after every character, whatever was open before it and whatever
comes after it, so a character is found wherever its encoding stands. What lies between the
characters are runs of at most three bytes. Each is as long as it can be while it still begins a
character, and that leaves one way to split a byte sequence.

## Main definitions and statements

* `pieces_append_encodeChar`: a character is read wherever it stands.
* `IllFormedRun`, `Splits`: a byte sequence as characters and longest ill-formed runs.
* `splits_pieces`, `Splits.unique`: the pieces that are read are the only way to split a sequence.
-/

namespace TypeRegistry.Text.Utf8

/-! ### Characters inside a byte sequence -/

/-- The encoding of a character is read as this character. -/
theorem pieces_encodeChar (c : Char) (rest : List UInt8) :
    pieces (String.utf8EncodeChar c ++ rest) = .scalar c :: pieces rest := by
  rcases utf8EncodeChar_cases c with ⟨b, hb, hchar, hc⟩ | ⟨b, u, hu, hn, hchar, hc⟩
  · have hascii : b < 0x80 := UInt8.lt_iff_toNat_lt.2 hb
    rw [hc, List.singleton_append, pieces_ascii hascii, hchar]
  · rw [hc, List.cons_append, pieces_first hu, piecesFrom_continuation hn, hchar]

/-- No character begins with a byte that continues another. -/
theorem exists_utf8EncodeChar_eq_cons (c : Char) : ∃ b later,
    String.utf8EncodeChar c = b :: later ∧ (b.toNat < 0x80 ∨ 0xC2 ≤ b.toNat) := by
  rcases utf8EncodeChar_cases c with ⟨b, hb, -, hc⟩ | ⟨b, u, hu, -, -, hc⟩
  · exact ⟨b, [], hc, .inl hb⟩
  · refine ⟨b, _, hc, .inr ?_⟩
    rcases Unfinished.ofFirst?_eq_some_iff.1 hu with h | h | h <;> omega

/-- A character ends what was open before it, and is read whole. -/
theorem piecesFrom_encodeChar {u : Unfinished} (hu : u.Sound) (c : Char) (rest : List UInt8) :
    piecesFrom (some u) (String.utf8EncodeChar c ++ rest) =
      .illFormed u.bytes :: .scalar c :: pieces rest := by
  obtain ⟨b, later, hc, hb⟩ := exists_utf8EncodeChar_eq_cons c
  have hbreak : u.accepts b = false := by
    have hlower := hu.lower
    have hupper := hu.upper
    rw [← Bool.not_eq_true, Unfinished.accepts_iff]
    omega
  rw [← pieces_encodeChar, hc, List.cons_append, piecesFrom_break hbreak]

/-- If an encoding is open, it is a sound one. -/
def SoundState (open? : Option Unfinished) : Prop :=
  ∀ u, open? = some u → u.Sound

theorem soundState_none : SoundState none := by
  rintro u ⟨⟩

theorem soundState_some {u : Unfinished} (hu : u.Sound) : SoundState (some u) := by
  rintro _ ⟨⟩
  exact hu

/-- What a byte leaves open after it was read anew is sound. -/
theorem soundState_readFirst (b : UInt8) : SoundState (readFirst b).2 := by
  rw [readFirst]
  split_ifs with hascii
  · exact soundState_none
  · cases hb : Unfinished.ofFirst? b with
    | none => exact soundState_none
    | some u => exact soundState_some (Unfinished.sound_of_ofFirst? hb)

/-- What is open stays sound. -/
theorem SoundState.read {open? : Option Unfinished} (hopen : SoundState open?) (b : UInt8) :
    SoundState (read open? b).2 := by
  cases open? with
  | none => exact soundState_readFirst b
  | some u =>
      rw [Utf8.read]
      -- A byte that is accepted goes on with what is open; any other is read anew.
      split_ifs with hb
      · cases hfurther : u.further with
        | zero =>
            rw [Unfinished.extend, hfurther]
            exact soundState_none
        | succ k =>
            rw [Unfinished.extend, hfurther]
            exact soundState_some ((hopen u rfl).append hb hfurther)
      · exact soundState_readFirst b

/-- A character is read wherever it stands: reading starts anew before it and after it. -/
theorem piecesFrom_append_encodeChar {open? : Option Unfinished}
    (hopen : SoundState open?) (before : List UInt8) (c : Char) (rest : List UInt8) :
    piecesFrom open? (before ++ (String.utf8EncodeChar c ++ rest)) =
      piecesFrom open? before ++ .scalar c :: pieces rest := by
  -- On the bytes before the character, for all that may be open at their start.
  induction before generalizing open? with
  | nil =>
      cases open? with
      | none => exact pieces_encodeChar c rest
      | some u => exact piecesFrom_encodeChar (hopen u rfl) c rest
  | cons b before ih =>
      rw [List.cons_append, piecesFrom, piecesFrom, List.append_assoc, ih (hopen.read b)]

/-- The encoding of a character is told from the bytes around it, whatever they are. -/
theorem pieces_append_encodeChar (before : List UInt8) (c : Char) (rest : List UInt8) :
    pieces (before ++ (String.utf8EncodeChar c ++ rest)) =
      pieces before ++ .scalar c :: pieces rest :=
  piecesFrom_append_encodeChar soundState_none before c rest

/-- A text is read character by character. -/
theorem pieces_flatMap_append (cs : List Char) (rest : List UInt8) :
    pieces (cs.flatMap String.utf8EncodeChar ++ rest) = cs.map .scalar ++ pieces rest := by
  induction cs with
  | nil => rfl
  | cons c cs ih =>
      rw [List.flatMap_cons, List.append_assoc, pieces_encodeChar, ih, List.map_cons,
        List.cons_append]

/-- The pieces of the encoding of a text are its characters. -/
theorem pieces_encode (s : String) : pieces (encode s) = s.toList.map .scalar := by
  have h := pieces_flatMap_append s.toList []
  rw [List.append_nil] at h
  rw [encode, h]
  exact List.append_nil _

/-- A text that is not empty is read wherever it stands. -/
theorem pieces_append_encode {s : String} (hs : s ≠ "") (before rest : List UInt8) :
    pieces (before ++ encode s ++ rest) = pieces before ++ s.toList.map .scalar ++ pieces rest := by
  have hne : s.toList ≠ [] := fun h => hs (String.toList_eq_nil_iff.1 h)
  obtain ⟨c, cs, hcons⟩ := List.exists_cons_of_ne_nil hne
  rw [encode, hcons, List.flatMap_cons, List.append_assoc, List.append_assoc,
    pieces_append_encodeChar, pieces_flatMap_append, List.map_cons, List.append_assoc,
    List.cons_append]

/-! ### Ill-formed runs -/

/-- The run `run` is ill-formed, and as long as it can be where `rest` comes after it. -/
structure IllFormedRun (run rest : List UInt8) : Prop where
  ne_nil : run ≠ []
  length_le : run.length ≤ 3
  /-- There is no character in it. -/
  noCharacter : ∀ c, ¬String.utf8EncodeChar c <:+: run
  /-- Several bytes make a run only where they begin a character. -/
  begins : run.length = 1 ∨ ∃ c, run <+: String.utf8EncodeChar c
  /-- The next byte does not go on with any character that the run begins. -/
  maximal : ∀ b later, rest = b :: later → ∀ c, ¬run ++ [b] <+: String.utf8EncodeChar c

/-- The pieces are the characters and the longest ill-formed runs of the bytes, in order. -/
inductive Splits : List UInt8 → List Piece → Prop
  | nil : Splits [] []
  | scalar (c : Char) {bytes : List UInt8} {ps : List Piece} (h : Splits bytes ps) :
      Splits (String.utf8EncodeChar c ++ bytes) (.scalar c :: ps)
  | illFormed {run bytes : List UInt8} {ps : List Piece} (hrun : IllFormedRun run bytes)
      (h : Splits bytes ps) : Splits (run ++ bytes) (.illFormed run :: ps)

/-- A run that is read as ill-formed, alone and before the next byte, is one. -/
theorem IllFormedRun.of_pieces {run rest : List UInt8} (hne : run ≠ []) (hlength : run.length ≤ 3)
    (hbegins : run.length = 1 ∨ ∃ c, run <+: String.utf8EncodeChar c)
    (halone : pieces run = [.illFormed run])
    (hcut : ∀ b later, rest = b :: later → ∀ bytes,
      ∃ ps, pieces (run ++ b :: bytes) = .illFormed run :: ps) : IllFormedRun run rest := by
  refine ⟨hne, hlength, ?_, hbegins, ?_⟩
  · rintro c ⟨before, later, hrun⟩
    -- A character would be read, wherever it stands in the run.
    have hread := pieces_append_encodeChar before c later
    rw [← List.append_assoc, hrun, halone] at hread
    have hmem : Piece.scalar c ∈ [Piece.illFormed run] := by
      rw [hread]
      exact List.mem_append_right _ List.mem_cons_self
    cases List.mem_singleton.1 hmem
  · -- Otherwise the character would be read as a run, cut where the next byte comes.
    rintro b later hrest c ⟨bytes, hc⟩
    obtain ⟨ps, hps⟩ := hcut b later hrest bytes
    have hread := pieces_encodeChar c []
    rw [List.append_nil, ← hc, List.append_assoc, List.singleton_append, hps] at hread
    cases hread

/-- An open encoding that the bytes after it do not go on with is an ill-formed run. -/
theorem Unfinished.Sound.illFormedRun {u : Unfinished} (hu : u.Sound) {rest : List UInt8}
    (hrest : ∀ b later, rest = b :: later → u.accepts b = false) : IllFormedRun u.bytes rest := by
  have hlength := hu.length
  refine .of_pieces hu.ne_nil (by omega) (.inr ?_) ?_ ?_
  · -- The least byte that is accepted leads to a character.
    obtain ⟨m, hm, -⟩ :=
      hu.exists_byteOf_eq (accepts_iff.2 ⟨Nat.le_refl _, hu.lower_le_upper⟩) 0
    have hlower : u.accepts (u.byteOf m) = true := by
      rw [hm]
      exact accepts_iff.2 ⟨Nat.le_refl _, hu.lower_le_upper⟩
    exact ⟨_, _, (hu.encodes m hlower).symm⟩
  · -- Nothing comes after it, so it is read as it is.
    have hread := hu.reads []
    rw [List.append_nil] at hread
    rw [hread]
    rfl
  · intro b later hcons bytes
    exact ⟨_, by rw [hu.reads, piecesFrom_break (hrest b later hcons)]⟩

/-- A byte that no encoding begins with is an ill-formed run. -/
theorem illFormedRun_stray {b : UInt8} (hascii : ¬b < 0x80) (hb : Unfinished.ofFirst? b = none)
    (rest : List UInt8) : IllFormedRun [b] rest := by
  refine .of_pieces (List.cons_ne_nil b []) (by simp) (.inl rfl) (pieces_stray hascii hb) ?_
  intro b' later _ bytes
  exact ⟨_, pieces_stray hascii hb⟩

/-- The bytes of the open encoding, if there is one. -/
def openBytes (open? : Option Unfinished) : List UInt8 :=
  open?.elim [] Unfinished.bytes

/-- A byte below `80` is the encoding of a character. -/
theorem utf8EncodeChar_ascii {b : UInt8} (hb : b < 0x80) :
    String.utf8EncodeChar (Char.ofNat b.toNat) = [b] := by
  have hsmall : b.toNat < 0x80 := UInt8.lt_iff_toNat_lt.1 hb
  rw [utf8EncodeChar_ofNat (.inl (by omega)), if_pos (by omega), UInt8.ofNat_toNat]

/-- The pieces that are read are those of what was open and what came after it. -/
theorem splits_piecesFrom {open? : Option Unfinished} (hopen : SoundState open?)
    (bytes : List UInt8) : Splits (openBytes open? ++ bytes) (piecesFrom open? bytes) := by
  induction bytes generalizing open? with
  | nil =>
      cases open? with
      | none => exact .nil
      | some u => exact .illFormed ((hopen u rfl).illFormedRun nofun) .nil
  | cons b rest ih =>
      -- Where nothing is open, the byte is a character, opens an encoding or is ill-formed.
      have hfirst : Splits (b :: rest) (pieces (b :: rest)) := by
        have hrest : Splits rest (pieces rest) := ih soundState_none
        by_cases hascii : b < 0x80
        · have hsplits := hrest.scalar (Char.ofNat b.toNat)
          rw [utf8EncodeChar_ascii hascii] at hsplits
          rw [pieces_ascii hascii]
          exact hsplits
        cases hb : Unfinished.ofFirst? b with
        | none =>
            rw [pieces_stray hascii hb]
            exact .illFormed (illFormedRun_stray hascii hb rest) hrest
        | some u =>
            have hsplits := ih (soundState_some (Unfinished.sound_of_ofFirst? hb))
            rw [openBytes, Option.elim, (Unfinished.bytes_of_ofFirst? hb).1] at hsplits
            rw [pieces_first hb]
            exact hsplits
      cases open? with
      | none => exact hfirst
      | some u =>
          have hu := hopen u rfl
          -- An open encoding is cut short, completed or longer by the byte.
          cases hb : u.accepts b with
          | false =>
              rw [piecesFrom_break hb]
              refine .illFormed (hu.illFormedRun ?_) hfirst
              rintro _ _ ⟨⟩
              exact hb
          | true =>
              cases hfurther : u.further with
              | zero =>
                  have hsplits := (ih soundState_none).scalar
                    (Char.ofNat (u.value * 64 + b.toNat % 64))
                  rw [hu.utf8EncodeChar_last hb hfurther, List.append_assoc] at hsplits
                  rw [piecesFrom_last hb hfurther]
                  exact hsplits
              | succ k =>
                  have hsplits := ih (soundState_some (hu.append hb hfurther))
                  rw [openBytes, Option.elim, Unfinished.append, List.append_assoc] at hsplits
                  rw [piecesFrom_more hb hfurther]
                  exact hsplits

/-- The pieces that are read split every byte sequence. -/
theorem splits_pieces (bytes : List UInt8) : Splits bytes (pieces bytes) :=
  splits_piecesFrom soundState_none bytes

namespace Splits

variable {bytes : List UInt8} {ps : List Piece}

/-- Nothing is lost in the pieces. -/
theorem flatMap_bytes (h : Splits bytes ps) : ps.flatMap Piece.bytes = bytes := by
  induction h with
  | nil => rfl
  | scalar c _ ih => rw [List.flatMap_cons, ih, Piece.bytes]
  | illFormed _ _ ih => rw [List.flatMap_cons, ih, Piece.bytes]

/-- What is not a character is an ill-formed run, where it stands. -/
theorem exists_illFormedRun (h : Splits bytes ps) {run : List UInt8}
    (hrun : .illFormed run ∈ ps) : ∃ rest, IllFormedRun run rest := by
  induction h with
  | nil => cases hrun
  | scalar c _ ih =>
      rcases List.mem_cons.1 hrun with hhead | htail
      · cases hhead
      · exact ih htail
  | @illFormed _ rest _ hill _ ih =>
      rcases List.mem_cons.1 hrun with hhead | htail
      · cases hhead
        exact ⟨rest, hill⟩
      · exact ih htail

end Splits

/-- A run that begins a character ends where the next byte does not belong to the character. -/
theorem IllFormedRun.eq_nil_of_prefix {run rest more : List UInt8} (hrun : IllFormedRun run rest)
    {c : Char} (hc : run ++ more <+: String.utf8EncodeChar c)
    (hmore : more <+: rest) : more = [] := by
  rcases more with _ | ⟨b, more⟩
  · rfl
  obtain ⟨later, hrest⟩ := hmore
  have hnext : run ++ [b] <+: run ++ b :: more :=
    List.prefix_append_right_inj run |>.2 (List.prefix_append [b] more)
  exact absurd (hnext.trans hc) (hrun.maximal b _ hrest.symm c)

/-- A run does not begin where a character does. -/
theorem IllFormedRun.not_encodeChar_append {run rest bytes : List UInt8}
    (hrun : IllFormedRun run rest) (c : Char) :
    String.utf8EncodeChar c ++ bytes ≠ run ++ rest := by
  intro heq
  -- The character ends in the run or after it. In the first case the run has a character; in the
  -- second the next byte goes on with one, unless both end at one place.
  rcases List.append_eq_append_iff.1 heq with ⟨more, hc, -⟩ | ⟨more, hc, hrest⟩
  · exact hrun.noCharacter c ⟨[], more, by rw [List.nil_append, hc]⟩
  · have hwhole : run ++ more <+: String.utf8EncodeChar c := by rw [hc]
    have hnil := hrun.eq_nil_of_prefix hwhole ⟨bytes, hrest.symm⟩
    rw [hnil, List.append_nil] at hc
    exact hrun.noCharacter c (hc ▸ List.infix_rfl)

/-- A run does not go on as another run. -/
theorem IllFormedRun.eq_nil_of_append {run more rest rest' : List UInt8}
    (hrun : IllFormedRun run rest) (hlonger : IllFormedRun (run ++ more) rest')
    (hmore : more <+: rest) : more = [] := by
  -- A longer run begins a character, with which the shorter one would go on.
  rcases hlonger.begins with hone | ⟨c, hc⟩
  · have hpos : 0 < run.length := List.length_pos_iff.2 hrun.ne_nil
    rw [List.length_append] at hone
    exact List.length_eq_zero_iff.1 (by omega)
  · exact hrun.eq_nil_of_prefix hc hmore

/-- Two runs that begin at one place end at one place. -/
theorem IllFormedRun.eq_of_append_eq {run run' rest rest' : List UInt8}
    (hrun : IllFormedRun run rest) (hrun' : IllFormedRun run' rest')
    (heq : run ++ rest = run' ++ rest') : run = run' ∧ rest = rest' := by
  have hends : run = run' := by
    rcases List.append_eq_append_iff.1 heq with ⟨more, rfl, hrest⟩ | ⟨more, rfl, hrest⟩
    · rw [hrun.eq_nil_of_append hrun' ⟨_, hrest.symm⟩, List.append_nil]
    · rw [hrun'.eq_nil_of_append hrun ⟨_, hrest.symm⟩, List.append_nil]
  subst hends
  exact ⟨rfl, List.append_cancel_left heq⟩

/-- There is one way to split a byte sequence. -/
theorem Splits.unique {bytes : List UInt8} {ps qs : List Piece} (hps : Splits bytes ps)
    (hqs : Splits bytes qs) : ps = qs := by
  -- First pieces are compared: a character is not the front of a run, nor the other way round, and
  -- two pieces of one sort end at one place.
  induction hps generalizing qs with
  | nil =>
      generalize hnil : ([] : List UInt8) = whole at hqs
      cases hqs with
      | nil => rfl
      | scalar c _ =>
          obtain ⟨b, later, hc, -⟩ := exists_utf8EncodeChar_eq_cons c
          rw [hc] at hnil
          cases hnil
      | illFormed hrun _ => exact absurd (List.append_eq_nil_iff.1 hnil.symm).1 hrun.ne_nil
  | @scalar c rest ps _ ih =>
      generalize hwhole : String.utf8EncodeChar c ++ rest = whole at hqs
      cases hqs with
      | nil =>
          obtain ⟨b, later, hc, -⟩ := exists_utf8EncodeChar_eq_cons c
          rw [hc] at hwhole
          cases hwhole
      | @scalar c' rest' qs' h =>
          have hread := congrArg pieces hwhole
          rw [pieces_encodeChar, pieces_encodeChar] at hread
          cases (List.cons.inj hread).1
          cases List.append_cancel_left hwhole
          rw [ih h]
      | illFormed hrun _ => exact absurd hwhole (hrun.not_encodeChar_append c)
  | @illFormed run rest ps hrun _ ih =>
      generalize hwhole : run ++ rest = whole at hqs
      cases hqs with
      | nil => exact absurd (List.append_eq_nil_iff.1 hwhole).1 hrun.ne_nil
      | scalar c _ => exact absurd hwhole.symm (hrun.not_encodeChar_append c)
      | illFormed hrun' h =>
          obtain ⟨rfl, rfl⟩ := hrun.eq_of_append_eq hrun' hwhole
          rw [ih h]

end TypeRegistry.Text.Utf8

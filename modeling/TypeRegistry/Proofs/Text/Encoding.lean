import Mathlib.Data.List.Basic
import Mathlib.Tactic.Ring
import TypeRegistry.Text.Utf8

/-!
# Encodings and how they are read

The encoding of a character is one byte, or a first byte and bytes of six bits each that continue
it. Read byte by byte, it is open after each byte but the last, and what is open knows the number
so far and which bytes it can go on with. This module ties the two: a character is read from its
encoding, and every byte that is accepted leads to the encoding of some character.

## Main definitions and statements

* `continuation`: the bytes after the first one.
* `Unfinished.total`: the number that an open encoding and the bits still to come spell.
* `piecesFrom_continuation`: the bytes that an open encoding waits for complete the character.
* `utf8EncodeChar_total`, `utf8EncodeChar_cases`: encodings that a first byte opens are encodings of
  characters, and all of them but those of one byte.
* `Unfinished.Sound`: what is known of an encoding that is open.
-/

namespace TypeRegistry.Text.Utf8

/-! ### Encodings -/

/-- The last `k` bytes of an encoding of the number `n`: six bits each, the highest first. -/
def continuation : Nat → Nat → List UInt8
  | 0, _ => []
  | k + 1, n => UInt8.ofNat (n / 64 ^ k % 64 + 0x80) :: continuation k n

/-- Continuation bytes only depend on the bits that they hold. -/
theorem continuation_congr {k m n : Nat} (h : m % 64 ^ k = n % 64 ^ k) :
    continuation k m = continuation k n := by
  induction k with
  | zero => rfl
  | succ k ih =>
      rw [Nat.pow_succ] at h
      have hhigh : m / 64 ^ k % 64 = n / 64 ^ k % 64 := by
        rw [← Nat.mod_mul_right_div_self, ← Nat.mod_mul_right_div_self, h]
      have hlow : m % 64 ^ k = n % 64 ^ k := by
        rw [← Nat.mod_mul_right_mod m, ← Nat.mod_mul_right_mod n, h]
      rw [continuation, continuation, hhigh, ih hlow]

namespace Unfinished

/-- The byte that continues `u` with the highest of the bits of `n` that are still to come. -/
def byteOf (u : Unfinished) (n : Nat) : UInt8 :=
  UInt8.ofNat (n / 64 ^ u.further % 64 + 0x80)

/-- The number that is spelled when the bits still to come are those of `n`. -/
def total (u : Unfinished) (n : Nat) : Nat :=
  u.value * 64 ^ (u.further + 1) + n % 64 ^ (u.further + 1)

/-- The open encoding with one more byte, and `further` more after the next. -/
def append (u : Unfinished) (b : UInt8) (further : Nat) : Unfinished :=
  ⟨u.bytes ++ [b], u.value * 64 + b.toNat % 64, 0x80, 0xBF, further⟩

end Unfinished

/-! ### Reading a byte -/

section Reading

variable {u : Unfinished} {b : UInt8} {rest : List UInt8}

/-- A byte below `80` is a character. -/
theorem pieces_ascii (hb : b < 0x80) :
    pieces (b :: rest) = .scalar (Char.ofNat b.toNat) :: pieces rest := by
  simp [pieces, piecesFrom, read, readFirst, hb]

/-- A byte that opens an encoding leaves it open. -/
theorem pieces_first (hu : Unfinished.ofFirst? b = some u) :
    pieces (b :: rest) = piecesFrom (some u) rest := by
  have hlead : ¬b < 0xC2 := by
    intro hb
    rw [Unfinished.ofFirst?, if_pos hb] at hu
    cases hu
  have hb : ¬b < 0x80 := by
    simp only [UInt8.lt_iff_toNat_lt, UInt8.reduceToNat] at hlead ⊢
    omega
  simp [pieces, piecesFrom, read, readFirst, hb, hu]

/-- Any other byte is ill-formed. -/
theorem pieces_stray (hb : ¬b < 0x80) (hu : Unfinished.ofFirst? b = none) :
    pieces (b :: rest) = .illFormed [b] :: pieces rest := by
  simp [pieces, piecesFrom, read, readFirst, hb, hu]

/-- An open encoding that waits for one byte is completed by it. -/
theorem piecesFrom_last (hb : u.accepts b = true) (hfurther : u.further = 0) :
    piecesFrom (some u) (b :: rest) =
      .scalar (Char.ofNat (u.value * 64 + b.toNat % 64)) :: pieces rest := by
  simp [pieces, piecesFrom, read, hb, Unfinished.extend, hfurther]

/-- One that waits for more stays open. -/
theorem piecesFrom_more {k : Nat} (hb : u.accepts b = true) (hfurther : u.further = k + 1) :
    piecesFrom (some u) (b :: rest) = piecesFrom (some (u.append b k)) rest := by
  simp [piecesFrom, read, hb, Unfinished.extend, hfurther, Unfinished.append]

/-- A byte that is not accepted is read anew. -/
theorem piecesFrom_break (hb : u.accepts b = false) :
    piecesFrom (some u) (b :: rest) = .illFormed u.bytes :: pieces (b :: rest) := by
  simp [pieces, piecesFrom, read, hb]

end Reading

/-! ### Numbers that encodings spell -/

namespace Unfinished

variable {u : Unfinished} {b : UInt8} {k n : Nat}

theorem accepts_iff : u.accepts b = true ↔ u.lower.toNat ≤ b.toNat ∧ b.toNat ≤ u.upper.toNat := by
  rw [accepts, Bool.and_eq_true, decide_eq_true_eq, decide_eq_true_eq, UInt8.le_iff_toNat_le,
    UInt8.le_iff_toNat_le]

/-- The next byte of a number has its next six bits. -/
theorem toNat_byteOf (u : Unfinished) (n : Nat) :
    (u.byteOf n).toNat = n / 64 ^ u.further % 64 + 0x80 := by
  rw [byteOf, UInt8.toNat_ofNat']
  omega

/-- After the second byte all continuation bytes are accepted. -/
theorem accepts_append : (u.append b k).accepts ((u.append b k).byteOf n) = true := by
  rw [accepts_iff, toNat_byteOf]
  simp only [append, UInt8.reduceToNat]
  omega

/-- The next byte takes its bits from the number. -/
theorem total_append (hfurther : u.further = k + 1) (n : Nat) :
    (u.append (u.byteOf n) k).total n = u.total n := by
  have hbits : (u.byteOf n).toNat % 64 = n / 64 ^ (k + 1) % 64 := by
    rw [toNat_byteOf, hfurther]
    omega
  simp only [total, append, hbits, hfurther]
  rw [Nat.mod_pow_succ (k := k + 1)]
  ring

/-- The last byte has the bits that are left of it. -/
theorem total_last (hfurther : u.further = 0) (n : Nat) :
    u.value * 64 + (u.byteOf n).toNat % 64 = u.total n := by
  rw [toNat_byteOf, total, hfurther]
  omega

end Unfinished

/-- The bytes that an open encoding waits for complete the character. -/
theorem piecesFrom_continuation {u : Unfinished} {n : Nat} (hn : u.accepts (u.byteOf n) = true)
    (rest : List UInt8) :
    piecesFrom (some u) (continuation (u.further + 1) n ++ rest) =
      .scalar (Char.ofNat (u.total n)) :: pieces rest := by
  have hcons (u : Unfinished) : continuation (u.further + 1) n =
      u.byteOf n :: continuation u.further n := rfl
  -- On the number of bytes that are still to come; the total does not change when one comes.
  induction hfurther : u.further generalizing u with
  | zero =>
      rw [← hfurther, hcons, List.cons_append, piecesFrom_last hn hfurther,
        Unfinished.total_last hfurther, hfurther, continuation, List.nil_append]
  | succ k ih =>
      have hbyte := ih (u := u.append (u.byteOf n) k) Unfinished.accepts_append rfl
      rw [Unfinished.total_append hfurther] at hbyte
      rw [← hfurther, hcons, List.cons_append, piecesFrom_more hn hfurther, hfurther, hbyte]

/-! ### First bytes -/

namespace Unfinished

/-- What a first byte of two opens. Every continuation byte may come second. -/
def ofTwo (b : UInt8) : Unfinished :=
  ⟨[b], b.toNat % 32, 0x80, 0xBF, 0⟩

/-- What a first byte of three opens. The limits on the second byte keep out numbers with a shorter
encoding, and surrogates. -/
def ofThree (b : UInt8) : Unfinished :=
  ⟨[b], b.toNat % 16, if b = 0xE0 then 0xA0 else 0x80, if b = 0xED then 0x9F else 0xBF, 1⟩

/-- What a first byte of four opens. The limits on the second byte keep out numbers with a shorter
encoding, and those beyond the last code point. -/
def ofFour (b : UInt8) : Unfinished :=
  ⟨[b], b.toNat % 8, if b = 0xF0 then 0x90 else 0x80, if b = 0xF4 then 0x8F else 0xBF, 2⟩

/-- The bytes that open an encoding, by the length of what they open. -/
theorem ofFirst?_eq_some_iff {b : UInt8} {u : Unfinished} :
    ofFirst? b = some u ↔
      (0xC2 ≤ b.toNat ∧ b.toNat ≤ 0xDF ∧ u = ofTwo b) ∨
      (0xE0 ≤ b.toNat ∧ b.toNat ≤ 0xEF ∧ u = ofThree b) ∨
      (0xF0 ≤ b.toNat ∧ b.toNat ≤ 0xF4 ∧ u = ofFour b) := by
  -- The definition, with what each length opens under its name.
  have hopen : ofFirst? b =
      if b < 0xC2 then none
      else if b ≤ 0xDF then some (ofTwo b)
      else if b ≤ 0xEF then some (ofThree b)
      else if b ≤ 0xF4 then some (ofFour b)
      else none := rfl
  simp only [hopen, UInt8.lt_iff_toNat_lt, UInt8.le_iff_toNat_le, UInt8.reduceToNat]
  split_ifs <;> simp only [Option.some.injEq, false_iff, eq_comm (b := u)] <;> grind

theorem accepts_ofTwo (b : UInt8) (n : Nat) : (ofTwo b).accepts ((ofTwo b).byteOf n) = true := by
  rw [accepts_iff, toNat_byteOf]
  simp only [ofTwo, UInt8.reduceToNat]
  omega

/-- The limits on the byte after the first of three keep out the numbers with a shorter encoding and
the surrogates, and nothing else. -/
theorem accepts_ofThree_iff {b : UInt8} (hlow : 0xE0 ≤ b.toNat) (hhigh : b.toNat ≤ 0xEF) (n : Nat) :
    (ofThree b).accepts ((ofThree b).byteOf n) = true ↔
      0x7FF < (ofThree b).total n ∧ ((ofThree b).total n).isValidChar := by
  have htotal : (ofThree b).total n = b.toNat % 16 * 4096 + n % 4096 := rfl
  rw [accepts_iff, toNat_byteOf, htotal, Nat.isValidChar]
  simp only [ofThree, ← UInt8.toNat_inj, UInt8.reduceToNat]
  split_ifs <;> simp only [UInt8.reduceToNat, Nat.pow_one] <;> omega

/-- Those on the byte after the first of four keep out the numbers with a shorter encoding and those
above the last code point. -/
theorem accepts_ofFour_iff {b : UInt8} (hlow : 0xF0 ≤ b.toNat) (hhigh : b.toNat ≤ 0xF4) (n : Nat) :
    (ofFour b).accepts ((ofFour b).byteOf n) = true ↔
      0xFFFF < (ofFour b).total n ∧ ((ofFour b).total n).isValidChar := by
  have htotal : (ofFour b).total n = b.toNat % 8 * 262144 + n % 262144 := rfl
  rw [accepts_iff, toNat_byteOf, htotal, Nat.isValidChar]
  simp only [ofFour, ← UInt8.toNat_inj, UInt8.reduceToNat]
  split_ifs <;> simp only [UInt8.reduceToNat, Nat.reducePow] <;> omega

end Unfinished

/-! ### Encodings of characters -/

/-- The encoding of a code point: one byte, or a first byte and the bytes that continue it. -/
theorem utf8EncodeChar_ofNat {n : Nat} (hn : n.isValidChar) :
    String.utf8EncodeChar (Char.ofNat n) =
      if n ≤ 0x7F then [UInt8.ofNat n]
      else if n ≤ 0x7FF then UInt8.ofNat (n / 64 % 32 + 0xC0) :: continuation 1 n
      else if n ≤ 0xFFFF then UInt8.ofNat (n / 4096 % 16 + 0xE0) :: continuation 2 n
      else UInt8.ofNat (n / 262144 % 8 + 0xF0) :: continuation 3 n := by
  simp only [continuation, Nat.reducePow, Nat.div_one]
  rw [Char.ofNat, dif_pos hn]
  rfl

/-- The number of an encoding that a first byte opens is a code point, and is encoded so. -/
theorem utf8EncodeChar_total {b : UInt8} {u : Unfinished} {n : Nat}
    (hu : Unfinished.ofFirst? b = some u) (hn : u.accepts (u.byteOf n) = true) :
    String.utf8EncodeChar (Char.ofNat (u.total n)) = b :: continuation (u.further + 1) n := by
  have hbyte {m : Nat} (hm : m = b.toNat) : UInt8.ofNat m = b := by
    rw [hm, UInt8.ofNat_toNat]
  -- By the length of what the byte opens. The limits on the second byte put the number in the range
  -- that is encoded with this length.
  rcases Unfinished.ofFirst?_eq_some_iff.1 hu with
    ⟨hlow, hhigh, rfl⟩ | ⟨hlow, hhigh, rfl⟩ | ⟨hlow, hhigh, rfl⟩
  · have htotal : (Unfinished.ofTwo b).total n = b.toNat % 32 * 64 + n % 64 := rfl
    rw [utf8EncodeChar_ofNat (.inl (by omega)), if_neg (by omega), if_pos (by omega),
      hbyte (by omega), htotal]
    exact congrArg _ (continuation_congr (by omega))
  · have htotal : (Unfinished.ofThree b).total n = b.toNat % 16 * 4096 + n % 4096 := rfl
    obtain ⟨hlong, hvalid⟩ := (Unfinished.accepts_ofThree_iff hlow hhigh n).1 hn
    rw [utf8EncodeChar_ofNat hvalid, if_neg (by omega), if_neg (by omega), if_pos (by omega),
      hbyte (by omega), htotal]
    exact congrArg _ (continuation_congr (by omega))
  · have htotal : (Unfinished.ofFour b).total n = b.toNat % 8 * 262144 + n % 262144 := rfl
    obtain ⟨hlong, hvalid⟩ := (Unfinished.accepts_ofFour_iff hlow hhigh n).1 hn
    rw [utf8EncodeChar_ofNat hvalid, if_neg (by omega), if_neg (by omega), if_neg (by omega),
      hbyte (by omega), htotal]
    exact congrArg _ (continuation_congr (by omega))

/-- Every character but the first 128 is the total of an encoding that some first byte opens. -/
theorem exists_total_eq {c : Char} (hc : 0x80 ≤ c.toNat) :
    ∃ b u, Unfinished.ofFirst? b = some u ∧ u.accepts (u.byteOf c.toNat) = true ∧
      u.total c.toNat = c.toNat := by
  have hvalid : c.toNat.isValidChar := c.valid
  have hlast : c.toNat < 0x110000 := by
    rcases hvalid with h | h <;> omega
  have hlead (n : Nat) (hn : n < 0x100) : (UInt8.ofNat n).toNat = n := UInt8.toNat_ofNat_of_lt' hn
  simp only [Unfinished.ofFirst?_eq_some_iff]
  -- The first byte is told by the size of the number, and its payload by the highest bits.
  by_cases htwo : c.toNat ≤ 0x7FF
  · have hb := hlead (c.toNat / 64 + 0xC0) (by omega)
    generalize UInt8.ofNat (c.toNat / 64 + 0xC0) = b at hb
    have htotal : (Unfinished.ofTwo b).total c.toNat = c.toNat := by
      simp only [Unfinished.total, Unfinished.ofTwo, hb]
      omega
    exact ⟨b, .ofTwo b, .inl ⟨by omega, by omega, rfl⟩, Unfinished.accepts_ofTwo b _, htotal⟩
  by_cases hthree : c.toNat ≤ 0xFFFF
  · have hb := hlead (c.toNat / 4096 + 0xE0) (by omega)
    generalize UInt8.ofNat (c.toNat / 4096 + 0xE0) = b at hb
    have htotal : (Unfinished.ofThree b).total c.toNat = c.toNat := by
      simp only [Unfinished.total, Unfinished.ofThree, hb]
      omega
    refine ⟨b, .ofThree b, .inr (.inl ⟨by omega, by omega, rfl⟩), ?_, htotal⟩
    rw [Unfinished.accepts_ofThree_iff (by omega) (by omega), htotal]
    exact ⟨by omega, hvalid⟩
  · have hb := hlead (c.toNat / 262144 + 0xF0) (by omega)
    generalize UInt8.ofNat (c.toNat / 262144 + 0xF0) = b at hb
    have htotal : (Unfinished.ofFour b).total c.toNat = c.toNat := by
      simp only [Unfinished.total, Unfinished.ofFour, hb]
      omega
    refine ⟨b, .ofFour b, .inr (.inr ⟨by omega, by omega, rfl⟩), ?_, htotal⟩
    rw [Unfinished.accepts_ofFour_iff (by omega) (by omega), htotal]
    exact ⟨by omega, hvalid⟩

/-- A character is encoded by one byte of its own, or by a first byte and the bytes that this waits
for. -/
theorem utf8EncodeChar_cases (c : Char) :
    (∃ b, b.toNat < 0x80 ∧ Char.ofNat b.toNat = c ∧ String.utf8EncodeChar c = [b]) ∨
    ∃ b u, Unfinished.ofFirst? b = some u ∧ u.accepts (u.byteOf c.toNat) = true ∧
      Char.ofNat (u.total c.toNat) = c ∧
      String.utf8EncodeChar c = b :: continuation (u.further + 1) c.toNat := by
  -- Numbers below `80` have one byte, and no first byte of more opens them.
  by_cases hc : c.toNat < 0x80
  · have hbyte : (UInt8.ofNat c.toNat).toNat = c.toNat := by
      rw [UInt8.toNat_ofNat']
      omega
    have hone := utf8EncodeChar_ofNat (n := c.toNat) c.valid
    rw [if_pos (by omega), Char.ofNat_toNat] at hone
    exact .inl ⟨UInt8.ofNat c.toNat, by omega, by rw [hbyte, Char.ofNat_toNat], hone⟩
  · obtain ⟨b, u, hu, hn, htotal⟩ := exists_total_eq (Nat.le_of_not_lt hc)
    have hmany := utf8EncodeChar_total hu hn
    rw [htotal, Char.ofNat_toNat] at hmany
    exact .inr ⟨b, u, hu, hn, by rw [htotal, Char.ofNat_toNat], hmany⟩

/-! ### Open encodings -/

namespace Unfinished

/-- An open encoding is one that the bytes read so far began, and every byte that it accepts leads
to the encoding of some character. -/
structure Sound (u : Unfinished) : Prop where
  /-- Only continuation bytes are accepted. -/
  lower : 0x80 ≤ u.lower.toNat
  upper : u.upper.toNat ≤ 0xBF
  lower_le_upper : u.lower.toNat ≤ u.upper.toNat
  ne_nil : u.bytes ≠ []
  length : u.bytes.length + u.further ≤ 3
  encodes : ∀ n, u.accepts (u.byteOf n) = true →
    String.utf8EncodeChar (Char.ofNat (u.total n)) = u.bytes ++ continuation (u.further + 1) n
  reads : ∀ rest, pieces (u.bytes ++ rest) = piecesFrom (some u) rest

variable {u : Unfinished} {b : UInt8}

/-- Only continuation bytes are accepted, and at least one of them. -/
theorem limits_of_ofFirst? (hu : ofFirst? b = some u) :
    0x80 ≤ u.lower.toNat ∧ u.upper.toNat ≤ 0xBF ∧ u.lower.toNat ≤ u.upper.toNat := by
  rcases ofFirst?_eq_some_iff.1 hu with ⟨-, -, rfl⟩ | ⟨-, -, rfl⟩ | ⟨-, -, rfl⟩
  · simp [ofTwo]
  · simp only [ofThree]
    split_ifs <;> simp_all
  · simp only [ofFour]
    split_ifs <;> simp_all

/-- An encoding that is opened has its first byte, and takes three more at most. -/
theorem bytes_of_ofFirst? (hu : ofFirst? b = some u) : u.bytes = [b] ∧ u.further ≤ 2 := by
  rcases ofFirst?_eq_some_iff.1 hu with ⟨-, -, rfl⟩ | ⟨-, -, rfl⟩ | ⟨-, -, rfl⟩
  · exact ⟨rfl, Nat.zero_le 2⟩
  · exact ⟨rfl, Nat.le_succ 1⟩
  · exact ⟨rfl, Nat.le_refl 2⟩

/-- What a first byte opens is sound. -/
theorem sound_of_ofFirst? (hu : ofFirst? b = some u) : u.Sound := by
  obtain ⟨hlower, hupper, hle⟩ := limits_of_ofFirst? hu
  obtain ⟨hbytes, hfurther⟩ := bytes_of_ofFirst? hu
  refine ⟨hlower, hupper, hle, ?_, ?_, ?_, ?_⟩
  · rw [hbytes]
    exact List.cons_ne_nil b []
  · rw [hbytes, List.length_singleton]
    omega
  · intro n hn
    rw [hbytes]
    exact utf8EncodeChar_total hu hn
  · intro rest
    rw [hbytes]
    exact pieces_first hu

/-- An accepted byte holds the next six bits of some number, with any lower bits. -/
theorem Sound.exists_byteOf_eq (hu : u.Sound) (hb : u.accepts b = true) (n : Nat) :
    ∃ m, u.byteOf m = b ∧ m % 64 ^ u.further = n % 64 ^ u.further := by
  obtain ⟨hlower, hupper⟩ := accepts_iff.1 hb
  have hlow := hu.lower
  have hhigh := hu.upper
  have hpos : 0 < 64 ^ u.further := Nat.pow_pos (by decide)
  -- The bits of the byte above the lower bits of `n`.
  refine ⟨64 ^ u.further * (b.toNat % 64) + n % 64 ^ u.further, ?_, ?_⟩
  · have hdiv : (64 ^ u.further * (b.toNat % 64) + n % 64 ^ u.further) / 64 ^ u.further =
        b.toNat % 64 := by
      rw [Nat.mul_add_div hpos, Nat.div_eq_of_lt (Nat.mod_lt n hpos), Nat.add_zero]
    rw [byteOf, hdiv, ← UInt8.toNat_inj, UInt8.toNat_ofNat']
    omega
  · rw [Nat.mul_add_mod, Nat.mod_mod]

/-- The last byte completes the encoding. -/
theorem Sound.utf8EncodeChar_last (hu : u.Sound) (hb : u.accepts b = true)
    (hfurther : u.further = 0) :
    String.utf8EncodeChar (Char.ofNat (u.value * 64 + b.toNat % 64)) = u.bytes ++ [b] := by
  obtain ⟨m, rfl, -⟩ := hu.exists_byteOf_eq hb 0
  rw [total_last hfurther, hu.encodes m hb, continuation, hfurther, continuation, byteOf, hfurther]

/-- An earlier byte leaves it open. -/
theorem Sound.append {k : Nat} (hu : u.Sound) (hb : u.accepts b = true)
    (hfurther : u.further = k + 1) : (u.append b k).Sound := by
  have hlength := hu.length
  refine ⟨Nat.le_refl 0x80, Nat.le_refl 0xBF, ?_, ?_, ?_, ?_, ?_⟩
  · simp [Unfinished.append]
  · exact List.append_ne_nil_of_right_ne_nil _ (List.cons_ne_nil b [])
  · simp only [Unfinished.append, List.length_append, List.length_singleton]
    omega
  · -- The byte holds the next bits of some number whose lower bits are those of `n`, and the
    -- encoding of that number is known before the byte is read.
    intro n hn
    obtain ⟨m, rfl, hm⟩ := hu.exists_byteOf_eq hb n
    rw [hfurther] at hm
    have htotal : (u.append (u.byteOf m) k).total n = u.total m := by
      rw [← total_append hfurther m, total, total]
      exact congrArg _ hm.symm
    have hrest : continuation (k + 1) n = continuation (k + 1) m := continuation_congr hm.symm
    rw [htotal, hu.encodes m hb, hfurther, continuation, Unfinished.append, List.append_assoc,
      hrest, byteOf, hfurther]
    rfl
  · intro rest
    rw [Unfinished.append, List.append_assoc, List.singleton_append, hu.reads,
      piecesFrom_more hb hfurther, Unfinished.append]

end Unfinished

end TypeRegistry.Text.Utf8

import ContextRouter.Python.Value

namespace python

/-- `text.encode("ascii")` for a text that is known to be ASCII. -/
def encode_ascii (text : Str) : Bytes := text.map fun c => UInt8.ofNat c.val

/-- A surrogate code point, which UTF-8 cannot represent. -/
def is_surrogate (n : Nat) : Bool := 0xd800 ≤ n && n ≤ 0xdfff

/-- The UTF-8 form of one code point. -/
def encode_code_point (c : CodePoint) : Option Bytes :=
  let n := c.val
  if is_surrogate n then none
  else if n < 0x80 then some [UInt8.ofNat n]
  else if n < 0x800 then some [UInt8.ofNat (0xc0 + n / 0x40), UInt8.ofNat (0x80 + n % 0x40)]
  else if n < 0x10000 then
    some [UInt8.ofNat (0xe0 + n / 0x1000), UInt8.ofNat (0x80 + n / 0x40 % 0x40), UInt8.ofNat (0x80 + n % 0x40)]
  else
    some [UInt8.ofNat (0xf0 + n / 0x40000), UInt8.ofNat (0x80 + n / 0x1000 % 0x40),
      UInt8.ofNat (0x80 + n / 0x40 % 0x40), UInt8.ofNat (0x80 + n % 0x40)]

/-- `text.encode("utf-8")`, with `none` for `UnicodeEncodeError`. -/
def encode_utf8 : Str → Option Bytes
  | [] => some []
  | c :: rest => do
    let first ← encode_code_point c
    let later ← encode_utf8 rest
    return first ++ later

/-- A non-empty text that has a UTF-8 form. -/
def Identifier (text : Str) : Prop := text ≠ [] ∧ (encode_utf8 text).isSome

instance (text : Str) : Decidable (Identifier text) :=
  inferInstanceAs (Decidable (text ≠ [] ∧ (encode_utf8 text).isSome))

/-- The six bits of a continuation byte. -/
def tail_bits (byte : UInt8) : Option Nat :=
  if 0x80 ≤ byte.toNat ∧ byte.toNat < 0xc0 then some (byte.toNat - 0x80) else none

/-- The code point with this number, unless a shorter form exists or UTF-8 has none. -/
def code_point (least n : Nat) : Option CodePoint :=
  if h : n < 0x110000 then
    if least ≤ n ∧ ¬ is_surrogate n then some ⟨n, h⟩ else none
  else
    none

/-- `content.decode("utf-8")`, with `none` for `UnicodeDecodeError`. -/
def decode_utf8 : Bytes → Option Str
  | [] => some []
  | a :: rest =>
    if a.toNat < 0x80 then do
      let first ← code_point 0 a.toNat
      let later ← decode_utf8 rest
      return first :: later
    else match rest with
    | [] => none
    | b :: rest =>
      if 0xc0 ≤ a.toNat ∧ a.toNat < 0xe0 then do
        let low ← tail_bits b
        let first ← code_point 0x80 ((a.toNat - 0xc0) * 0x40 + low)
        let later ← decode_utf8 rest
        return first :: later
      else match rest with
      | [] => none
      | c :: rest =>
        if 0xe0 ≤ a.toNat ∧ a.toNat < 0xf0 then do
          let middle ← tail_bits b
          let low ← tail_bits c
          let first ← code_point 0x800 ((a.toNat - 0xe0) * 0x1000 + middle * 0x40 + low)
          let later ← decode_utf8 rest
          return first :: later
        else match rest with
        | [] => none
        | d :: rest =>
          if 0xf0 ≤ a.toNat then do
            let high ← tail_bits b
            let middle ← tail_bits c
            let low ← tail_bits d
            let first ← code_point 0x10000
              ((a.toNat - 0xf0) * 0x40000 + high * 0x1000 + middle * 0x40 + low)
            let later ← decode_utf8 rest
            return first :: later
          else
            none

example : (encode_utf8 "é日𝄞").bind decode_utf8 = some (Str.ofString "é日𝄞") := by decide +kernel

theorem tail_bits_ofNat {bits : Nat} (hbits : bits < 0x40) : tail_bits (UInt8.ofNat (0x80 + bits)) = some bits := by
  have hbyte : (UInt8.ofNat (0x80 + bits)).toNat = 0x80 + bits :=
    UInt8.toNat_ofNat_of_lt' (show 0x80 + bits < 256 by omega)
  rw [tail_bits, hbyte, if_pos (by omega), Nat.add_sub_cancel_left]

theorem code_point_val {least : Nat} {c : CodePoint} (hleast : least ≤ c.val) (hscalar : is_surrogate c.val = false) :
    code_point least c.val = some c := by
  rw [code_point, dif_pos c.isLt, if_pos ⟨hleast, by simp [hscalar]⟩]

/-! One turn of the decoder, for each length of a code point. -/

theorem decode_one {a : UInt8} (hlead : a.toNat < 0x80) {first : CodePoint} (hfirst : code_point 0 a.toNat = some first)
    (later : Bytes) : decode_utf8 (a :: later) = (decode_utf8 later).map (first :: ·) := by
  rw [decode_utf8.eq_def (_ :: _)]
  dsimp only
  rw [if_pos hlead, hfirst]
  cases decode_utf8 later <;> rfl

theorem decode_two {a b : UInt8} (hlead : 0xc0 ≤ a.toNat ∧ a.toNat < 0xe0) {low : Nat} (hlow : tail_bits b = some low)
    {first : CodePoint} (hfirst : code_point 0x80 ((a.toNat - 0xc0) * 0x40 + low) = some first) (later : Bytes) :
    decode_utf8 (a :: b :: later) = (decode_utf8 later).map (first :: ·) := by
  have hone : ¬ a.toNat < 0x80 := by omega
  rw [decode_utf8.eq_def (_ :: _)]
  dsimp only
  rw [if_neg hone, if_pos hlead, hlow]
  rw [Option.bind_eq_bind, Option.bind_some, hfirst]
  cases decode_utf8 later <;> rfl

theorem decode_three {a b c : UInt8} (hlead : 0xe0 ≤ a.toNat ∧ a.toNat < 0xf0) {middle low : Nat}
    (hmiddle : tail_bits b = some middle) (hlow : tail_bits c = some low) {first : CodePoint}
    (hfirst : code_point 0x800 ((a.toNat - 0xe0) * 0x1000 + middle * 0x40 + low) = some first) (later : Bytes) :
    decode_utf8 (a :: b :: c :: later) = (decode_utf8 later).map (first :: ·) := by
  have hone : ¬ a.toNat < 0x80 := by omega
  have htwo : ¬ (0xc0 ≤ a.toNat ∧ a.toNat < 0xe0) := by omega
  rw [decode_utf8.eq_def (_ :: _)]
  dsimp only
  rw [if_neg hone, if_neg htwo, if_pos hlead, hmiddle, hlow]
  rw [Option.bind_eq_bind, Option.bind_some, Option.bind_eq_bind, Option.bind_some, hfirst]
  cases decode_utf8 later <;> rfl

theorem decode_four {a b c d : UInt8} (hlead : 0xf0 ≤ a.toNat) {high middle low : Nat} (hhigh : tail_bits b = some high)
    (hmiddle : tail_bits c = some middle) (hlow : tail_bits d = some low) {first : CodePoint}
    (hfirst : code_point 0x10000 ((a.toNat - 0xf0) * 0x40000 + high * 0x1000 + middle * 0x40 + low) = some first)
    (later : Bytes) : decode_utf8 (a :: b :: c :: d :: later) = (decode_utf8 later).map (first :: ·) := by
  have hone : ¬ a.toNat < 0x80 := by omega
  have htwo : ¬ (0xc0 ≤ a.toNat ∧ a.toNat < 0xe0) := by omega
  have hthree : ¬ (0xe0 ≤ a.toNat ∧ a.toNat < 0xf0) := by omega
  rw [decode_utf8.eq_def (_ :: _)]
  dsimp only
  rw [if_neg hone, if_neg htwo, if_neg hthree, if_pos hlead, hhigh, hmiddle, hlow]
  rw [Option.bind_eq_bind, Option.bind_some, Option.bind_eq_bind, Option.bind_some, Option.bind_eq_bind,
    Option.bind_some, hfirst]
  cases decode_utf8 later <;> rfl

theorem toNat_lead {base n : Nat} (hlt : base + n < 256) : (UInt8.ofNat (base + n)).toNat = base + n :=
  UInt8.toNat_ofNat_of_lt' hlt

/-- The first code point is read back from its bytes, whatever follows them. -/
theorem decode_utf8_append {c : CodePoint} {first : Bytes} (hfirst : encode_code_point c = some first) (later : Bytes) :
    decode_utf8 (first ++ later) = (decode_utf8 later).map (c :: ·) := by
  have hlt := c.isLt
  simp only [encode_code_point] at hfirst
  split at hfirst
  case isTrue => cases hfirst
  case isFalse hsurrogate =>
    have hscalar : is_surrogate c.val = false := by simpa using hsurrogate
    split at hfirst
    case isTrue hone =>
      obtain rfl := Option.some.inj hfirst
      have hlead : (UInt8.ofNat c.val).toNat = c.val := UInt8.toNat_ofNat_of_lt' (show c.val < 256 by omega)
      apply decode_one
      · omega
      · rw [hlead]
        exact code_point_val (Nat.zero_le _) hscalar
    case isFalse hone =>
      split at hfirst
      case isTrue htwo =>
        obtain rfl := Option.some.inj hfirst
        have hlead := @toNat_lead 0xc0 (c.val / 0x40) (by omega)
        apply decode_two
        · omega
        · exact tail_bits_ofNat (Nat.mod_lt _ (by omega))
        · rw [hlead, show (0xc0 + c.val / 0x40 - 0xc0) * 0x40 + c.val % 0x40 = c.val by omega]
          exact code_point_val (by omega) hscalar
      case isFalse htwo =>
        split at hfirst
        case isTrue hthree =>
          obtain rfl := Option.some.inj hfirst
          have hlead := @toNat_lead 0xe0 (c.val / 0x1000) (by omega)
          apply decode_three
          · omega
          · exact tail_bits_ofNat (Nat.mod_lt _ (by omega))
          · exact tail_bits_ofNat (Nat.mod_lt _ (by omega))
          · rw [hlead, show (0xe0 + c.val / 0x1000 - 0xe0) * 0x1000 + c.val / 0x40 % 0x40 * 0x40 + c.val % 0x40 = c.val by
              omega]
            exact code_point_val (by omega) hscalar
        case isFalse hthree =>
          obtain rfl := Option.some.inj hfirst
          have hlead := @toNat_lead 0xf0 (c.val / 0x40000) (by omega)
          apply decode_four
          · omega
          · exact tail_bits_ofNat (Nat.mod_lt _ (by omega))
          · exact tail_bits_ofNat (Nat.mod_lt _ (by omega))
          · exact tail_bits_ofNat (Nat.mod_lt _ (by omega))
          · rw [hlead, show (0xf0 + c.val / 0x40000 - 0xf0) * 0x40000 + c.val / 0x1000 % 0x40 * 0x1000 +
              c.val / 0x40 % 0x40 * 0x40 + c.val % 0x40 = c.val by omega]
            exact code_point_val (by omega) hscalar

/-- Decoding undoes encoding. -/
theorem decode_encode_utf8 {text : Str} {content : Bytes} (hcontent : encode_utf8 text = some content) :
    decode_utf8 content = some text := by
  induction text generalizing content with
  | nil =>
    obtain rfl := Option.some.inj hcontent
    rfl
  | cons c rest ih =>
    simp only [encode_utf8, Option.bind_eq_bind, Option.bind_eq_some_iff, Option.pure_def,
      Option.some.injEq] at hcontent
    obtain ⟨first, hfirst, later, hlater, rfl⟩ := hcontent
    rw [decode_utf8_append hfirst, ih hlater]
    rfl

theorem encode_utf8_inj {text text' : Str} {content : Bytes} (hcontent : encode_utf8 text = some content)
    (hcontent' : encode_utf8 text' = some content) : text = text' :=
  Option.some.inj ((decode_encode_utf8 hcontent).symm.trans (decode_encode_utf8 hcontent'))

/-- UTF-8 can represent every text without surrogates, and no other. -/
theorem encode_utf8_isSome_iff {text : Str} :
    (encode_utf8 text).isSome ↔ ∀ c ∈ text, is_surrogate c.val = false := by
  induction text with
  | nil => simp [encode_utf8]
  | cons c rest ih =>
    have hfirst : (encode_code_point c).isSome ↔ is_surrogate c.val = false := by
      simp only [encode_code_point]
      split
      case isTrue hsurrogate => simp [hsurrogate]
      case isFalse hscalar =>
        refine iff_of_true ?_ (by simpa using hscalar)
        split_ifs <;> rfl
    rw [List.forall_mem_cons, ← ih, ← hfirst, encode_utf8]
    cases encode_code_point c <;> cases encode_utf8 rest <;> simp

def IsAscii (text : Str) : Prop := ∀ c ∈ text, c.val < 0x80

instance (text : Str) : Decidable (IsAscii text) := List.decidableBAll (fun c : CodePoint => c.val < 0x80) text

theorem IsAscii.append {left right : Str} (hleft : IsAscii left) (hright : IsAscii right) : IsAscii (left ++ right) :=
  List.forall_mem_append.mpr ⟨hleft, hright⟩

theorem identifier_of_ascii {text : Str} (hne : text ≠ []) (hascii : IsAscii text) : Identifier text := by
  refine ⟨hne, encode_utf8_isSome_iff.mpr ?_⟩
  intro c hc
  have hlt := hascii c hc
  simp only [is_surrogate, Bool.and_eq_false_iff, decide_eq_false_iff_not]
  omega

end python

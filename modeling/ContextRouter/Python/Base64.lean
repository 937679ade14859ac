import ContextRouter.Python.Utf8

namespace python

/-- The digits of the standard base64 alphabet. -/
def b64_digit (n : Nat) : CodePoint :=
  Fin.ofNat 0x110000 <|
    if n < 26 then 0x41 + n
    else if n < 52 then 0x61 + (n - 26)
    else if n < 62 then 0x30 + (n - 52)
    else if n = 62 then 0x2b
    else 0x2f

def b64_pad : CodePoint := 0x3d

/-- `base64.b64encode(raw).decode("ascii")`: four digits for three bytes. -/
def b64encode : Bytes → Str
  | [] => []
  | [a] => [b64_digit (a.toNat / 4), b64_digit (a.toNat % 4 * 16), b64_pad, b64_pad]
  | [a, b] =>
    [b64_digit (a.toNat / 4), b64_digit (a.toNat % 4 * 16 + b.toNat / 16), b64_digit (b.toNat % 16 * 4), b64_pad]
  | a :: b :: c :: rest =>
    b64_digit (a.toNat / 4) :: b64_digit (a.toNat % 4 * 16 + b.toNat / 16) ::
      b64_digit (b.toNat % 16 * 4 + c.toNat / 64) :: b64_digit (c.toNat % 64) :: b64encode rest

example : b64encode (encode_ascii "light w") = Str.ofString "bGlnaHQgdw==" := by decide +kernel

theorem length_b64encode (raw : Bytes) : (b64encode raw).length = 4 * ((raw.length + 2) / 3) := by
  induction raw using b64encode.induct with
  | case1 => rfl
  | case2 a => simp [b64encode]
  | case3 a b => simp [b64encode]
  | case4 a b c rest ih =>
    simp only [b64encode, List.length_cons, ih]
    omega

theorem le_b64_digit {n : Nat} (hn : n < 64) : 0x2b ≤ (b64_digit n).val := by
  simp only [b64_digit, Fin.ofNat]
  split_ifs <;> omega

/-- No digit and no padding is a control character or a space. -/
theorem le_of_mem_b64encode {raw : Bytes} : ∀ c ∈ b64encode raw, 0x2b ≤ c.val := by
  have hpad : 0x2b ≤ b64_pad.val := by decide
  induction raw using b64encode.induct with
  | case1 => simp [b64encode]
  | case2 a =>
    have ha := a.toNat_lt
    simp only [b64encode, List.forall_mem_cons]
    exact ⟨le_b64_digit (by omega), le_b64_digit (by omega), hpad, hpad, List.forall_mem_nil _⟩
  | case3 a b =>
    have ha := a.toNat_lt
    have hb := b.toNat_lt
    simp only [b64encode, List.forall_mem_cons]
    exact ⟨le_b64_digit (by omega), le_b64_digit (by omega), le_b64_digit (by omega), hpad, List.forall_mem_nil _⟩
  | case4 a b c rest ih =>
    have ha := a.toNat_lt
    have hb := b.toNat_lt
    have hc := c.toNat_lt
    simp only [b64encode, List.forall_mem_cons]
    exact ⟨le_b64_digit (by omega), le_b64_digit (by omega), le_b64_digit (by omega), le_b64_digit (by omega), ih⟩

end python

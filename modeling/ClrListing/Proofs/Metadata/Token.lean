/-
Tokens and the rows they name.

A row takes three bytes of a token, so a token gives back the row it was
made of exactly as long as the row fits; two tokens of one table are then
different if their rows are. Where a row is not cut to three bytes, what is
too much of it is mixed into the number of the table.
-/
import ClrListing.Metadata.Token

namespace ClrListing.Metadata.Token

variable {t : TableId} {row : Nat}

/-- How many rows a table can number. -/
def rowLimit : Nat := 0x1000000

theorem code_lt (t : TableId) : t.code < 64 := by
  cases t <;> decide

theorem toNat_ofRow (t : TableId) (row : Nat) :
    (ofRow t row).value.toNat = t.code * 0x1000000 + row % 0x1000000 := by
  have hcode := code_lt t
  unfold ofRow
  rw [UInt32.toNat_ofNat']
  omega

/-- A token gives back the table it was made of. -/
theorem isIn_ofRow (t : TableId) (row : Nat) : (ofRow t row).isIn t = true := by
  unfold isIn tableCode
  rw [toNat_ofRow, decide_eq_true_eq]
  omega

/-- A token gives back the row it was made of. -/
theorem row_ofRow (h : row < rowLimit) : (Token.ofRow t row).row = row := by
  unfold rowLimit at h
  unfold Token.row
  rw [toNat_ofRow]
  omega

/-- A token is made of its table and its row. -/
theorem ofRow_row {token : Token} (h : token.isIn t = true) : ofRow t token.row = token := by
  have htable : token.value.toNat / 0x1000000 = t.code := of_decide_eq_true h
  obtain ⟨value⟩ := token
  have hvalue : (ofRow t (Token.row ⟨value⟩)).value = value := by
    rw [← UInt32.toNat_inj, toNat_ofRow]
    unfold Token.row
    simp only [] at htable ⊢
    omega
  exact congrArg Token.mk hvalue

/-- Different rows of a table have different tokens. -/
theorem ofRow_inj {row' : Nat} (h : row < rowLimit) (h' : row' < rowLimit)
    (heq : ofRow t row = ofRow t row') : row = row' := by
  rw [← row_ofRow (t := t) h, heq, row_ofRow h']

/-- A row that is put beside the number of its table without being cut. -/
def mixed (t : TableId) (row : Nat) : Token := ⟨UInt32.ofNat (t.code * 0x1000000 ||| row)⟩

theorem toNat_mixed (h : row < 0x8000000) :
    (mixed t row).value.toNat = t.code * 0x1000000 ||| row := by
  have hcode := code_lt t
  have hword : t.code * 0x1000000 ||| row < Nat.pow 2 32 :=
    Nat.or_lt_two_pow (show _ < 0x100000000 by omega) (show _ < 0x100000000 by omega)
  unfold mixed
  exact UInt32.toNat_ofNat_of_lt' hword

theorem tableCode_mixed (h : row < 0x8000000) :
    (mixed t row).tableCode = t.code ||| row / 0x1000000 := by
  have hdiv : (t.code * 0x1000000 ||| row) / 0x1000000
      = t.code * 0x1000000 / 0x1000000 ||| row / 0x1000000 := Nat.or_div_two_pow (n := 24)
  unfold tableCode
  rw [toNat_mixed h, hdiv, Nat.mul_div_cancel _ (by decide)]

theorem row_mixed (h : row < 0x8000000) : (mixed t row).row = row % 0x1000000 := by
  have hmod : (t.code * 0x1000000 ||| row) % 0x1000000
      = t.code * 0x1000000 % 0x1000000 ||| row % 0x1000000 := Nat.or_mod_two_pow (n := 24)
  unfold Token.row
  rw [toNat_mixed h, hmod, Nat.mul_mod_left, Nat.zero_or]

/-- A row that fits is put beside the number of its table and no more. -/
theorem mixed_row {token : Token} (h : token.isIn t = true) : mixed t token.row = token := by
  have hrow : token.row < 0x1000000 := Nat.mod_lt _ (by decide)
  have hor : t.code * 0x1000000 ||| token.row = t.code * 0x1000000 + token.row := by
    have hshift : t.code * 0x1000000 = t.code <<< 24 := by rw [Nat.shiftLeft_eq]
    rw [hshift, Nat.shiftLeft_add_eq_or_of_lt (i := 24) hrow]
  have hof := ofRow_row h
  unfold ofRow at hof
  unfold mixed
  rwa [Nat.mod_eq_of_lt hrow, ← hor] at hof

end ClrListing.Metadata.Token

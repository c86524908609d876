import AlderpointDNS.Lib.Text
import AlderpointDNS.SoftwareUpdates.Versions

/-!
# Numbers in form fields

What `int(text)` makes of a text that comes from a form or a file.  It accepts white space around
the number, a sign, any decimal digits of Unicode, and single underscores between digits; a text of
more than 4300 digits is refused.
-/

namespace AlderpointDNS

open Text

/-- `int(text)`. -/
def intOf (text : Str) : Option ℤ :=
  let body := strip text
  let negative : Bool := body.head? = some '-'
  let groups := split '_' (if negative || body.head? = some '+' then body.tail else body)
  if groups.all (fun g => g ≠ [] && g.all SoftwareUpdates.isDecimal)
      && groups.flatten.length ≤ 4300 then
    let n : ℤ := SoftwareUpdates.int groups.flatten
    some (if negative then -n else n)
  else none

example : (["443", " +0_8 ", "-1", "", "1__0", "\u0661"].map fun s => intOf s.toList)
    = [some 443, some 8, some (-1), none, none, some 1] := by
  decide +kernel

/-- A number is read as it is written, if it does not have too many digits. -/
theorem intOf_toDigits (n : ℕ) : intOf (Nat.toDigits 10 n)
    = if (Nat.toDigits 10 n).length ≤ 4300 then some (n : ℤ) else none := by
  have hdigit : ∀ c ∈ Nat.toDigits 10 n, Debian.isDigit c = true := by
    intro c hc
    have hdigit := Nat.isDigit_of_mem_toDigits (by decide) (by decide) hc
    simpa [Debian.isDigit, Char.isDigit, Char.le_def] using hdigit
  have hversion : ∀ c ∈ Nat.toDigits 10 n, SoftwareUpdates.isVersionChar c = true := fun c hc =>
    SoftwareUpdates.isVersionChar_digit (hdigit c hc)
  have hne : ∀ {c : Char}, Debian.isDigit c = false → c ∉ Nat.toDigits 10 n := by
    intro c hc hmem
    rw [hdigit c hmem] at hc
    cases hc
  have hnonempty : Nat.toDigits 10 n ≠ [] := Nat.toDigits_ne_nil
  have hminus : (Nat.toDigits 10 n).head? ≠ some '-' := fun h =>
    hne (by decide) (List.mem_of_mem_head? h)
  have hplus : (Nat.toDigits 10 n).head? ≠ some '+' := fun h =>
    hne (by decide) (List.mem_of_mem_head? h)
  have hdecimal : (Nat.toDigits 10 n).all SoftwareUpdates.isDecimal = true :=
    List.all_eq_true.mpr fun c hc => by
      rw [SoftwareUpdates.isDecimal_of_isVersionChar (hversion c hc), hdigit c hc]
  have hvalue : SoftwareUpdates.int (Nat.toDigits 10 n) = n := by
    rw [SoftwareUpdates.int_eq_number hdigit, Debian.number, ← Nat.ofDigitChars_eq_foldl,
      Nat.ofDigitChars_ten_toDigits]
  simp [intOf, SoftwareUpdates.strip_of_isVersionChar hversion, hminus, hplus,
    split_of_not_mem (hne (by decide) : '_' ∉ Nat.toDigits 10 n), hnonempty, hdecimal, hvalue]

end AlderpointDNS

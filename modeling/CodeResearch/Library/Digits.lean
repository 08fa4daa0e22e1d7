import Mathlib.Data.Nat.Digits.Defs
import Mathlib.Tactic.Positivity

/-!
# Decimal numbers of one width

Their order is the order of their texts, also when more text follows.
-/
namespace CodeResearch.Digits

/-- The `w` decimal digits of a number below `10 ^ w`. -/
def padded : ℕ → ℕ → List Char
  | 0, _ => []
  | w + 1, n => (n / 10 ^ w).digitChar :: padded w (n % 10 ^ w)

example : padded 4 812 = "0812".toList := by decide

theorem digitChar_lt_iff : ∀ d < 10, ∀ e < 10,
    (d.digitChar < e.digitChar ↔ d < e) ∧ (d.digitChar = e.digitChar ↔ d = e) := by
  decide

theorem lt_iff_div_mod {b : ℕ} (hb : 0 < b) (n m : ℕ) :
    n < m ↔ n / b < m / b ∨ n / b = m / b ∧ n % b < m % b := by
  have hn := Nat.div_add_mod n b
  have hm := Nat.div_add_mod m b
  have hrn := Nat.mod_lt n hb
  have hrm := Nat.mod_lt m hb
  rcases lt_trichotomy (n / b) (m / b) with h | h | h
  · have hmul := Nat.mul_le_mul_left b (Nat.succ_le_of_lt h)
    rw [Nat.mul_succ] at hmul
    exact iff_of_true (by omega) (.inl h)
  · rw [h] at hn ⊢
    omega
  · have hmul := Nat.mul_le_mul_left b (Nat.succ_le_of_lt h)
    rw [Nat.mul_succ] at hmul
    omega

theorem padded_append_lt_iff {w n m : ℕ} (hn : n < 10 ^ w) (hm : m < 10 ^ w) (s t : List Char) :
    padded w n ++ s < padded w m ++ t ↔ n < m ∨ n = m ∧ s < t := by
  induction w generalizing n m with
  | zero =>
    obtain rfl : n = 0 := by simpa using hn
    obtain rfl : m = 0 := by simpa using hm
    simp [padded]
  | succ w ih =>
    have hpos : 0 < 10 ^ w := by positivity
    have hdigit : ∀ k < 10 ^ (w + 1), k / 10 ^ w < 10 := fun k hk =>
      Nat.div_lt_of_lt_mul (by rwa [← Nat.pow_succ])
    obtain ⟨hlt, heq⟩ := digitChar_lt_iff _ (hdigit n hn) _ (hdigit m hm)
    have hsame : n = m ↔ n / 10 ^ w = m / 10 ^ w ∧ n % 10 ^ w = m % 10 ^ w :=
      ⟨fun h => h ▸ ⟨rfl, rfl⟩, fun ⟨hdiv, hmod⟩ => by
        rw [← Nat.div_add_mod n (10 ^ w), ← Nat.div_add_mod m (10 ^ w), hdiv, hmod]⟩
    rw [padded, padded, List.cons_append, List.cons_append, List.cons_lt_cons_iff, hlt, heq,
      ih (Nat.mod_lt _ hpos) (Nat.mod_lt _ hpos), lt_iff_div_mod hpos n m, hsame]
    tauto

end CodeResearch.Digits

import Mathlib.Algebra.Order.Ring.Nat
import Mathlib.Data.List.Induction

/-!
# Fixed-width digits

`pad b w n` prints `n` in `w` digits of base `b`, zero padded (Python's
`%0wd` and `%0wx`). It is injective on the numbers that fit.
-/

namespace Taskowl.Py

/-- `n` in `w` digits of base `b`, zero padded. -/
def pad (b : Nat) : Nat → Nat → List Char
  | 0, _ => []
  | w + 1, n => pad b w (n / b) ++ [Nat.digitChar (n % b)]

@[simp] theorem length_pad (b w n : Nat) : (pad b w n).length = w := by
  induction w generalizing n with
  | zero => rfl
  | succ w ih => simp [pad, ih]

theorem digitChar_inj {m n : Nat} (hm : m < 16) (hn : n < 16)
    (h : Nat.digitChar m = Nat.digitChar n) : m = n := by
  have key : ∀ a < 16, ∀ b < 16, Nat.digitChar a = Nat.digitChar b → a = b := by decide
  exact key _ hm _ hn h

theorem pad_inj {b w m n : Nat} (hb : 0 < b) (hb16 : b ≤ 16) (hm : m < b ^ w) (hn : n < b ^ w)
    (h : pad b w m = pad b w n) : m = n := by
  induction w generalizing m n with
  | zero => simp only [Nat.pow_zero] at hm hn; omega
  | succ w ih =>
    rw [Nat.pow_succ] at hm hn
    obtain ⟨h1, h2⟩ := List.append_inj' h rfl
    have hq : m / b = n / b :=
      ih (Nat.div_lt_of_lt_mul (by rwa [Nat.mul_comm]))
        (Nat.div_lt_of_lt_mul (by rwa [Nat.mul_comm])) h1
    have hmb : m % b < b := Nat.mod_lt _ hb
    have hnb : n % b < b := Nat.mod_lt _ hb
    have hr : m % b = n % b := digitChar_inj (by omega) (by omega) (by simpa using h2)
    rw [← Nat.div_add_mod m b, ← Nat.div_add_mod n b, hq, hr]

theorem mem_pad {b w n : Nat} (hb : 0 < b) (hb16 : b ≤ 16) {c : Char} (h : c ∈ pad b w n) :
    c ∈ "0123456789abcdef".toList := by
  induction w generalizing n with
  | zero => cases h
  | succ w ih =>
    rw [pad, List.mem_append, List.mem_singleton] at h
    rcases h with h | rfl
    · exact ih h
    · have key : ∀ a < 16, Nat.digitChar a ∈ "0123456789abcdef".toList := by decide
      have := Nat.mod_lt n hb
      exact key _ (by omega)

/-- Every string of hex digits is printed. -/
theorem exists_pad {l : List Char} (h : ∀ c ∈ l, c ∈ "0123456789abcdef".toList) :
    ∃ n < 16 ^ l.length, pad 16 l.length n = l := by
  induction l using List.reverseRecOn with
  | nil => exact ⟨0, by decide, rfl⟩
  | append_singleton l c ih =>
    obtain ⟨n, hn, hl⟩ := ih fun d hd => h d (List.mem_append_left _ hd)
    have key : ("0123456789abcdef".toList.all fun c =>
        (List.range 16).any fun d => Nat.digitChar d == c) = true := by decide
    have hc := List.all_eq_true.mp key c (h c (by simp))
    obtain ⟨d, hd, hdc⟩ := List.any_eq_true.mp hc
    rw [List.mem_range] at hd
    rw [List.length_append, List.length_singleton]
    refine ⟨n * 16 + d, by rw [Nat.pow_succ]; omega, ?_⟩
    have hquot : (n * 16 + d) / 16 = n := by omega
    have hrem : (n * 16 + d) % 16 = d := by omega
    rw [pad, hquot, hrem, hl, eq_of_beq hdc]

theorem notMem_pad {b w n : Nat} (hb : 0 < b) (hb16 : b ≤ 16) {c : Char}
    (hc : c ∉ "0123456789abcdef".toList) : c ∉ pad b w n :=
  fun h => hc (mem_pad hb hb16 h)

end Taskowl.Py

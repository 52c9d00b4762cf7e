import Calculator.Double
import Mathlib.Order.Monotone.Basic
import Mathlib.Tactic.Ring

/-!
# The row of magnitudes

How the magnitudes of the doubles are spaced. From one power of two to the next they are evenly
spaced, and at every power of two from the second on the spacing doubles.

* `spacing k` is the distance from the magnitude of rank `k` to the next;
* `units_mul_add` is a magnitude by its binade, `units_succ` by the one before it;
* `units_strictMono` says that the row is increasing.
-/

namespace Calculator.Double

/-- The distance from the magnitude of rank `k` to the next, in units of `2⁻¹⁰⁷⁴`. -/
def spacing (k : Nat) : Nat :=
  2 ^ (k / binade - 1)

theorem spacing_pos (k : Nat) : 0 < spacing k :=
  Nat.two_pow_pos _

/-- The spacing never shrinks. -/
theorem spacing_mono {j k : Nat} (h : j ≤ k) : spacing j ≤ spacing k :=
  Nat.pow_le_pow_right (by decide) (Nat.sub_le_sub_right (Nat.div_le_div_right h) 1)

/-- A rank by its doublings and its place among the magnitudes that are so spaced. -/
theorem exists_mul_add (k : Nat) :
    ∃ e h, k = e * binade + h ∧ (e = 0 ∨ binade ≤ h) ∧ h < 2 * binade := by
  have hbinade : binade = 2 ^ 52 := rfl
  refine ⟨k / binade - 1, k - (k / binade - 1) * binade, ?_, ?_, ?_⟩ <;> rw [hbinade] <;> omega

/-- The spacing after so many doublings. -/
theorem spacing_mul_add {e h : Nat} (hlow : e = 0 ∨ binade ≤ h) (hhigh : h < 2 * binade) :
    spacing (e * binade + h) = 2 ^ e := by
  have hbinade : binade = 2 ^ 52 := rfl
  have hdoublings : (e * binade + h) / binade - 1 = e := by
    rw [hbinade] at hlow hhigh ⊢
    omega
  rw [spacing, hdoublings]

/-- **A magnitude by its binade.** The last magnitude of a binade is the first of the next. -/
theorem units_mul_add {e h : Nat} (hlow : e = 0 ∨ binade ≤ h) (hhigh : h ≤ 2 * binade) :
    units (e * binade + h) = h * 2 ^ e := by
  have hbinade : binade = 2 ^ 52 := rfl
  rcases Nat.lt_or_eq_of_le hhigh with hlt | rfl
  · have hdoublings : (e * binade + h) / binade - 1 = e := by
      rw [hbinade] at hlow hlt ⊢
      omega
    simp only [units, hdoublings, Nat.add_sub_cancel_left, Nat.shiftLeft_eq]
  · -- The place behind the last is the first of the next binade, with twice the spacing.
    have hdoublings : (e * binade + 2 * binade) / binade - 1 = e + 1 := by
      rw [hbinade]
      omega
    have hplace : e * binade + 2 * binade - (e + 1) * binade = binade := by
      rw [hbinade]
      omega
    simp only [units, hdoublings, hplace, Nat.shiftLeft_eq]
    ring

/-- **A magnitude by the one before it.** -/
theorem units_succ (k : Nat) : units (k + 1) = units k + spacing k := by
  obtain ⟨e, h, rfl, hlow, hhigh⟩ := exists_mul_add k
  have hlow' : e = 0 ∨ binade ≤ h + 1 := hlow.imp_right Nat.le_succ_of_le
  rw [spacing_mul_add hlow hhigh, units_mul_add hlow hhigh.le, Nat.add_assoc,
    units_mul_add hlow' hhigh, Nat.add_mul, Nat.one_mul]

/-- A magnitude by the one after it, unless it is the first after a doubling. -/
theorem units_pred_add {e h : Nat} (hlow : e = 0 ∨ binade < h) (hhigh : h ≤ 2 * binade)
    (hpos : 0 < h) : units (e * binade + h - 1) + 2 ^ e = h * 2 ^ e := by
  obtain ⟨m, rfl⟩ : ∃ m, h = m + 1 := ⟨h - 1, by omega⟩
  have hlow' : e = 0 ∨ binade ≤ m := hlow.imp_right Nat.le_of_lt_succ
  rw [← Nat.add_assoc, Nat.add_sub_cancel, units_mul_add hlow' (by omega), Nat.add_mul, Nat.one_mul]

/-- Between a magnitude and the next lies a spacing of its binade at least. -/
theorem two_pow_le_spacing {e h : Nat} (hlow : e = 0 ∨ binade ≤ h) :
    2 ^ e ≤ spacing (e * binade + h) := by
  rcases hlow with rfl | hlow
  · exact spacing_pos _
  · rw [← spacing_mul_add (.inr (Nat.le_refl binade)) (by decide)]
    exact spacing_mono (Nat.add_le_add_left hlow _)

/-- The row of magnitudes is increasing. -/
theorem units_strictMono : StrictMono units := by
  apply strictMono_nat_of_lt_succ
  intro k
  rw [units_succ]
  exact Nat.lt_add_of_pos_right (spacing_pos k)

/-- Every magnitude from the first binade on is many times the spacing there. -/
theorem binade_mul_spacing_le {k : Nat} (h : binade ≤ k) : binade * spacing k ≤ units k := by
  obtain ⟨e, m, rfl, hlow, hhigh⟩ := exists_mul_add k
  have hm : binade ≤ m := hlow.elim (fun he => by rwa [he, Nat.zero_mul, Nat.zero_add] at h) id
  rw [spacing_mul_add hlow hhigh, units_mul_add hlow hhigh.le]
  exact Nat.mul_le_mul_right _ hm

/-- A magnitude and the next are less than `10¹⁶` times as much as the neighbours of the first are apart.
-/
theorem units_add_units_lt {k : Nat} (hk : 0 < k) :
    units k + units (k + 1) < 10 ^ 16 * (units (k + 1) - units (k - 1)) := by
  have hbinade : binade = 2 ^ 52 := rfl
  obtain ⟨e, h, rfl, hlow, hhigh⟩ := exists_mul_add k
  have hself := units_mul_add hlow hhigh.le
  have hnext := units_succ (e * binade + h)
  rw [spacing_mul_add hlow hhigh, hself] at hnext
  have hstep : 0 < 2 ^ e := Nat.two_pow_pos e
  by_cases hfirst : 0 < e ∧ h = binade
  · -- The first magnitude of a binade: the one before it is nearer, but all three are half as large.
    have hbefore : units (e * binade + h - 1) ≤ units (e * binade + h) :=
      units_strictMono.monotone (Nat.sub_le _ 1)
    have hbound : h * 2 ^ e ≤ 2 ^ 52 * 2 ^ e := Nat.mul_le_mul_right _ (by omega)
    omega
  · have hpos : 0 < h := by rcases hlow with rfl | hlow <;> omega
    have hbefore := units_pred_add (e := e) (by omega) hhigh.le hpos
    have hbound : h * 2 ^ e ≤ (2 ^ 53 - 1) * 2 ^ e := Nat.mul_le_mul_right _ (by omega)
    omega

end Calculator.Double

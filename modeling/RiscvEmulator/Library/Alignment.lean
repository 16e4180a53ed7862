import Mathlib.Algebra.Order.Group.Nat
import Mathlib.Algebra.Order.Ring.Nat
import Mathlib.Order.Lattice

/-!
# Rounding up to an alignment

`alignUp alignment address` is the least multiple of the alignment from `address` on. For
alignments that are powers of two one rounding absorbs another: rounding up several times
is rounding up once, to the largest alignment.
-/
namespace RiscvEmulator.Library.Alignment

/-- What the address lacks to a multiple of the alignment. -/
def shortfall (alignment address : Nat) : Nat := (alignment - address % alignment) % alignment

def alignUp (alignment address : Nat) : Nat := address + shortfall alignment address

@[simp] theorem shortfall_zero (alignment : Nat) : shortfall alignment 0 = 0 := by
  simp [shortfall]

variable {alignment address : Nat}

theorem le_alignUp (alignment address : Nat) : address ≤ alignUp alignment address :=
  Nat.le_add_right _ _

theorem alignUp_lt (address : Nat) (hpositive : 0 < alignment) :
    alignUp alignment address < address + alignment :=
  Nat.add_lt_add_left (Nat.mod_lt _ hpositive) _

theorem dvd_alignUp (address : Nat) (hpositive : 0 < alignment) :
    alignment ∣ alignUp alignment address := by
  have hrest := Nat.mod_lt address hpositive
  have hdiv := Nat.div_add_mod address alignment
  rcases Nat.eq_zero_or_pos (address % alignment) with hzero | hmore
  · refine ⟨address / alignment, ?_⟩
    simp only [alignUp, shortfall, hzero, Nat.sub_zero, Nat.mod_self]
    omega
  · refine ⟨address / alignment + 1, ?_⟩
    have hpad : shortfall alignment address = alignment - address % alignment :=
      Nat.mod_eq_of_lt (by omega)
    rw [alignUp, hpad, Nat.mul_add, Nat.mul_one]
    omega

/-- No smaller multiple will do. -/
theorem alignUp_le {target : Nat} (hle : address ≤ target) (hdvd : alignment ∣ target) :
    alignUp alignment address ≤ target := by
  rcases Nat.eq_zero_or_pos alignment with rfl | hpositive
  · obtain rfl := Nat.eq_zero_of_zero_dvd hdvd
    simp [alignUp, shortfall, Nat.le_zero.mp hle]
  · -- two multiples less than one alignment apart are the same
    by_contra hpast
    have hup := dvd_alignUp address hpositive
    have hgap := Nat.le_of_dvd (by omega) (Nat.dvd_sub hup hdvd)
    have hlt := alignUp_lt address hpositive
    omega

theorem alignUp_of_dvd (hdvd : alignment ∣ address) : alignUp alignment address = address :=
  Nat.le_antisymm (alignUp_le (Nat.le_refl _) hdvd) (le_alignUp alignment address)

@[simp] theorem alignUp_one (address : Nat) : alignUp 1 address = address :=
  alignUp_of_dvd (Nat.one_dvd _)

theorem alignUp_mono {address' : Nat} (hpositive : 0 < alignment) (hle : address ≤ address') :
    alignUp alignment address ≤ alignUp alignment address' :=
  alignUp_le (hle.trans (le_alignUp _ _)) (dvd_alignUp address' hpositive)

/-- A coarser rounding absorbs a finer one before it. -/
theorem alignUp_alignUp_of_dvd {fine coarse : Nat} (hdvd : fine ∣ coarse) (hcoarse : 0 < coarse) :
    alignUp coarse (alignUp fine address) = alignUp coarse address := by
  have hup := dvd_alignUp address hcoarse
  apply Nat.le_antisymm
  · apply alignUp_le _ hup
    exact alignUp_le (le_alignUp _ _) (hdvd.trans hup)
  · exact alignUp_mono hcoarse (le_alignUp _ _)

/-- Of two powers of two the larger one decides. -/
theorem alignUp_alignUp_pow (i j address : Nat) :
    alignUp (2 ^ j) (alignUp (2 ^ i) address) = alignUp (max (2 ^ i) (2 ^ j)) address := by
  have hpositive := Nat.two_pow_pos i
  rcases Nat.le_total i j with hle | hle
  · rw [max_eq_right (Nat.pow_le_pow_right (by decide) hle)]
    exact alignUp_alignUp_of_dvd (Nat.pow_dvd_pow 2 hle) (Nat.two_pow_pos j)
  · rw [max_eq_left (Nat.pow_le_pow_right (by decide) hle)]
    exact alignUp_of_dvd ((Nat.pow_dvd_pow 2 hle).trans (dvd_alignUp address hpositive))

/-- The largest of the alignments, and 1 if there are none. -/
def largest (alignments : List Nat) : Nat := alignments.foldl max 1

theorem max_pow {first second : Nat} (hfirst : ∃ n, first = 2 ^ n) (hsecond : ∃ n, second = 2 ^ n) :
    ∃ n, max first second = 2 ^ n := by
  rcases max_choice first second with hmax | hmax
  · rwa [hmax]
  · rwa [hmax]

end RiscvEmulator.Library.Alignment

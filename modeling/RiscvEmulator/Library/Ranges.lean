import Mathlib.Data.List.Chain
import Mathlib.Data.List.Flatten

/-!
# Half-open ranges in a row

What comparing neighbours says about a whole list of ranges. If each range ends before
the next one starts, any two of them are disjoint and the last one ends last; if each
ends where the next one starts, every place between the two ends is in exactly one. For
ranges in the order of their starts, none of them empty, both hold the other way.
-/
namespace RiscvEmulator.Library.Ranges

/-- The places from `start` up to and without `stop`. -/
structure Range where
  start : Nat
  stop : Nat
  ordered : start ≤ stop

namespace Range

def Contains (range : Range) (i : Nat) : Prop := range.start ≤ i ∧ i < range.stop

instance (range : Range) (i : Nat) : Decidable (range.Contains i) :=
  inferInstanceAs (Decidable (_ ∧ _))

/-- `a` ends at or before the start of `b`. -/
def Before (a b : Range) : Prop := a.stop ≤ b.start

/-- `a` ends at the start of `b`. -/
def Adjoins (a b : Range) : Prop := a.stop = b.start

def Disjoint (a b : Range) : Prop := ∀ i, ¬(a.Contains i ∧ b.Contains i)

theorem Adjoins.before {a b : Range} (h : a.Adjoins b) : a.Before b := Nat.le_of_eq h

theorem Before.trans {a b c : Range} (hab : a.Before b) (hbc : b.Before c) : a.Before c := by
  have hb := b.ordered
  unfold Before at *
  omega

instance : Trans Before Before Before := ⟨Before.trans⟩

theorem Before.disjoint {a b : Range} (h : a.Before b) : a.Disjoint b := by
  intro i hboth
  unfold Before at h
  unfold Contains at hboth
  omega

/-- Neighbours in order put the whole list in order. -/
theorem pairwise_before {ranges : List Range} (h : ranges.IsChain Before) :
    ranges.Pairwise Before := List.isChain_iff_pairwise.mp h

theorem pairwise_disjoint {ranges : List Range} (h : ranges.IsChain Before) :
    ranges.Pairwise Disjoint := (pairwise_before h).imp Before.disjoint

/-- Of two disjoint ranges the one that starts first ends before the other starts. -/
theorem before_of_disjoint {a b : Range} (hstarts : a.start ≤ b.start) (hpos : b.start < b.stop)
    (h : a.Disjoint b) : a.Before b := by
  have hoff := h b.start
  unfold Contains at hoff
  unfold Before
  omega

/-- The last range ends last. -/
theorem stop_le_last {ranges : List Range} (h : ranges.IsChain Before) {last : Range}
    (hlast : ranges.getLast? = some last) : ∀ range ∈ ranges, range.stop ≤ last.stop := by
  obtain ⟨before, rfl⟩ := List.getLast?_eq_some_iff.mp hlast
  intro range hmem
  rcases List.mem_append.mp hmem with hmem | hmem
  · have hpairs := (List.pairwise_append.mp (pairwise_before h)).2.2
    have hbefore := hpairs range hmem last List.mem_cons_self
    have hordered := last.ordered
    unfold Before at hbefore
    omega
  · rw [List.mem_singleton.mp hmem]

/-- Adjoining ranges cover each place between their ends once, and no other place. -/
theorem countP_contains {first last : Range} {ranges : List Range}
    (h : (first :: ranges).IsChain Adjoins) (hlast : (first :: ranges).getLast? = some last)
    (i : Nat) :
    (first :: ranges).countP (fun range => decide (range.Contains i)) =
      if first.start ≤ i ∧ i < last.stop then 1 else 0 := by
  induction ranges generalizing first with
  | nil =>
    have hsame : first = last := Option.some.inj hlast
    subst hsame
    by_cases hin : first.Contains i
    · rw [List.countP_cons_of_pos (by simpa only [decide_eq_true_eq] using hin), List.countP_nil]
      exact (if_pos hin).symm
    · rw [List.countP_cons_of_neg (by simpa only [decide_eq_true_eq] using hin), List.countP_nil]
      exact (if_neg hin).symm
  | cons second ranges ih =>
    obtain ⟨hadjoins, hrest⟩ := List.isChain_cons_cons.mp h
    have hlast' : (second :: ranges).getLast? = some last := by
      rwa [List.getLast?_cons_cons] at hlast
    have hstop := stop_le_last (hrest.imp fun _ _ => Adjoins.before) hlast' second
      List.mem_cons_self
    have hfirst := first.ordered
    have hsecond := second.ordered
    unfold Adjoins at hadjoins
    by_cases hin : first.Contains i
    · rw [List.countP_cons_of_pos (by simpa only [decide_eq_true_eq] using hin), ih hrest hlast']
      unfold Contains at hin
      rw [if_neg (by omega), if_pos (by omega)]
    · rw [List.countP_cons_of_neg (by simpa only [decide_eq_true_eq] using hin), ih hrest hlast']
      unfold Contains at hin
      exact if_congr (by omega) rfl rfl

/-- Ranges in order adjoin if they cover each place between two ends once and no other. -/
theorem isChain_adjoins_of_countP {ranges : List Range} {low high : Nat}
    (hpos : ∀ range ∈ ranges, range.start < range.stop)
    (horder : ranges.Pairwise fun a b => a.start ≤ b.start)
    (hcount : ∀ i, ranges.countP (fun range => decide (range.Contains i)) =
      if low ≤ i ∧ i < high then 1 else 0) :
    ranges.IsChain Adjoins ∧ ∀ first ∈ ranges.head?, first.start = low := by
  induction ranges generalizing low with
  | nil => exact ⟨.nil, by simp⟩
  | cons first ranges ih =>
    obtain ⟨hfirstPos, hrestPos⟩ := List.forall_mem_cons.mp hpos
    obtain ⟨hleast, hrestOrder⟩ := List.pairwise_cons.mp horder
    have hinside (i : Nat) (hi : first.Contains i) : low ≤ i ∧ i < high := by
      have hcovered := hcount i
      rw [List.countP_cons_of_pos (by simpa using hi)] at hcovered
      by_contra hout
      rw [if_neg hout] at hcovered
      omega
    have hlow := hinside first.start ⟨Nat.le_refl _, hfirstPos⟩
    have hhigh := hinside (first.stop - 1) ⟨by omega, by omega⟩
    have hstart : first.start = low := by
      have hcovered := hcount low
      rw [if_pos ⟨Nat.le_refl _, by omega⟩] at hcovered
      obtain ⟨range, hmem, hcontains⟩ := List.countP_pos_iff.mp (hcovered.symm ▸ Nat.one_pos)
      have hbelow := (of_decide_eq_true hcontains).1
      rcases List.mem_cons.mp hmem with rfl | hmem
      · omega
      · have hle := hleast range hmem
        omega
    have hrestCount (i : Nat) : ranges.countP (fun range => decide (range.Contains i)) =
        if first.stop ≤ i ∧ i < high then 1 else 0 := by
      have hcovered := hcount i
      by_cases hin : first.Contains i
      · rw [List.countP_cons_of_pos (by simpa using hin), if_pos (hinside i hin)] at hcovered
        rw [if_neg (fun hafter => by unfold Contains at hin; omega)]
        omega
      · rw [List.countP_cons_of_neg (by simpa using hin)] at hcovered
        rw [hcovered]
        unfold Contains at hin
        exact if_congr (by omega) rfl rfl
    obtain ⟨hchain, hnext⟩ := ih hrestPos hrestOrder hrestCount
    refine ⟨List.isChain_cons.mpr ⟨fun next hmem => (hnext next hmem).symm, hchain⟩, ?_⟩
    intro other hmem
    rw [← Option.some.inj hmem]
    exact hstart

end Range
end RiscvEmulator.Library.Ranges

import Mathlib.Tactic.Common
import TableLoom.Proofs.Check.Entries
import TableLoom.Check.Scalar

/-!
The two ways to take data for a flag: what it converts to, and whether it counts as a yes. They agree but
for words. Every word counts as a yes, also one that spells a no.
-/

namespace TableLoom

namespace Value

theorem floorAt_eq_zero {x : Float} (h : isIntegral x = true) :
    (Decimal.Binary.ofBits x.toBits).floorAt 0 = 0 ↔ (Decimal.Binary.ofBits x.toBits).m = 0 := by
  generalize hb : Decimal.Binary.ofBits x.toBits = b
  have hwhole : 0 ≤ b.q ∨ b.m % Decimal.pow2 (-b.q).toNat = 0 := by
    simpa [isIntegral, hb] using h
  have hpos (n : Nat) : 0 < Decimal.pow2 n := Nat.pow_pos (by decide)
  have hone : Decimal.pow10 0 = 1 := rfl
  have hfloor : b.floorAt 0 = b.m * Decimal.pow2 b.q.toNat / Decimal.pow2 (-b.q).toNat := by
    simp [Decimal.Binary.floorAt, hone]
  rw [hfloor, Nat.div_eq_zero_iff_lt (hpos _)]
  constructor
  · intro hlt
    rcases hwhole with hq | hmod
    · have hnone : Decimal.pow2 (-b.q).toNat = 1 := by
        rw [Int.toNat_of_nonpos (by omega)]
        rfl
      rw [hnone, Nat.lt_one_iff, Nat.mul_eq_zero] at hlt
      exact hlt.resolve_right (Nat.ne_of_gt (hpos _))
    · rw [← Nat.mod_eq_of_lt (a := b.m) (b := Decimal.pow2 (-b.q).toNat), hmod]
      exact Nat.lt_of_le_of_lt (Nat.le_mul_of_pos_right _ (hpos _)) hlt
  · intro hzero
    rw [hzero, Nat.zero_mul]
    exact hpos _

/-- A number without a fraction counts as a no exactly if it is zero. -/
theorem truthy_float {x : Float} (h : isIntegral x = true) :
    (Value.float x).truthy = true ↔ truncate x ≠ 0 := by
  have hzero : truncate x = 0 ↔ (Decimal.Binary.ofBits x.toBits).m = 0 := by
    rw [← floorAt_eq_zero h]
    unfold truncate
    dsimp only
    split <;> omega
  rw [truthy, bne_iff_ne]
  exact (not_congr hzero).symm

end Value

namespace Check

/-- A text, or bytes that hold one, with a word for no. -/
def SpellsNo (v : Value) : Prop :=
  ∃ s, spelling? v = some s ∧ boolOfWord s = .fits false

theorem boolOfInt_eq_fits {n : Int} {b : Bool} (h : boolOfInt n = .fits b) : n ≠ 0 ↔ b = true := by
  unfold boolOfInt at h
  split at h
  · next hn => cases h; simpa using hn
  · next hn =>
      split at h
      · cases h; simpa using hn
      · cases h

theorem intOfFloat_eq_fits {x : Float} {n : Int} (h : intOfFloat x = .fits n) :
    Value.isIntegral x = true ∧ Value.truncate x = n := by
  unfold intOfFloat at h
  split at h
  · cases h
  · split at h
    · cases h
    · next hwhole =>
        split at h
        · exact ⟨by simpa using hwhole, Checked.fits.inj h⟩
        · cases h

theorem boolOfWord_empty {b : Bool} : boolOfWord "" ≠ .fits b := by
  have hnone : (boolOfWord "").value? = none := by decide +kernel
  rw [ne_eq, ← Checked.value?_eq_some, hnone]
  exact (Option.some_ne_none b).symm

/-- A flag that converts counts as a yes if it is one, or if it is a word. -/
theorem truthy_of_bool {v : Value} {b : Bool} (h : bool v = .fits b) :
    v.truthy = true ↔ b = true ∨ SpellsNo v := by
  -- Words count as a yes whatever they say, and the empty text is no word for either.
  have hword {s : String} (hs : spelling? v = some s) (hfits : boolOfWord s = .fits b)
      (htruthy : v.truthy = false → s = "") : v.truthy = true ↔ b = true ∨ SpellsNo v := by
    have hyes : v.truthy = true := by
      by_contra hno
      rw [htruthy (by simpa using hno)] at hfits
      exact boolOfWord_empty hfits
    cases b with
    | true => simp [hyes]
    | false => exact iff_of_true hyes (.inr ⟨s, hs, hfits⟩)
  have hunspelled (hnone : spelling? v = none) : ¬ SpellsNo v := by
    rintro ⟨s, hs, -⟩
    rw [hnone] at hs
    cases hs
  unfold bool at h
  cases v with
  | null | moment _ | list _ | set _ | map _ => cases h
  | bool c =>
      obtain rfl := Checked.fits.inj h
      simp [Value.truthy, hunspelled rfl]
  | int n =>
      change (if isMachineInt n then boolOfInt n else .flaw .notBool) = .fits b at h
      split at h
      · rw [or_iff_left (hunspelled rfl), ← boolOfInt_eq_fits h, Value.truthy, bne_iff_ne]
      · cases h
  | float x =>
      cases hwhole : intOfFloat x with
      | fits n =>
          replace h : boolOfInt n = .fits b := by simpa [spelled?, hwhole] using h
          obtain ⟨hintegral, rfl⟩ := intOfFloat_eq_fits hwhole
          rw [or_iff_left (hunspelled rfl), Value.truthy_float hintegral, boolOfInt_eq_fits h]
      | flawed is => simp [spelled?, hwhole] at h
  | text s =>
      change (if Text.hasHalf s then .flaw .unreadableText else boolOfWord s) = .fits b at h
      split at h
      · cases h
      · exact hword rfl h (by simp [Value.truthy])
  | bytes c =>
      cases hs : Text.Utf8.decode? c with
      | some s =>
          replace h : boolOfWord s = .fits b := by simpa [spelled?, hs] using h
          refine hword hs h fun hempty => ?_
          have hc : c = ByteArray.empty := by
            simpa [Value.truthy, ByteArray.isEmpty] using hempty
          subst hc
          have hnothing : Text.Utf8.decode? ByteArray.empty = some "" := by decide +kernel
          exact (Option.some.inj (hnothing.symm.trans hs)).symm
      | none => simp [spelled?, hs] at h

end Check

end TableLoom

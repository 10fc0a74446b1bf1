import Mathlib.Algebra.Order.Field.Basic
import Mathlib.Data.Rat.Cast.Order
import Mathlib.Tactic.FieldSimp
import Mathlib.Tactic.Linarith
import NewsDay.Network.WatchServer

/-! # The size of an image for the watch

`resizeImage` shrinks an image that is too wide, and then shrinks what is still
too tall. Each of the two steps scales both sides by one factor, so the two
together scale the image by the largest factor with which it fits.
-/

namespace NewsDay.WatchServer

open Foundation

/-- The size of what `resizeImage` returns, for an image of a given size. -/
def resizedSize (size maxSize : ℚ × ℚ) : ℚ × ℚ := (outputSize size maxSize).getD size

/-- The factor between the two sizes. -/
def fitScale (size maxSize : ℚ × ℚ) : ℚ :=
  min 1 (min (maxSize.1 / size.1) (maxSize.2 / size.2))

/-- One shrinking step, for the side that has the given extent and limit. -/
def shrink (extent limit : ℚ) (size : ℚ × ℚ) : ℚ × ℚ :=
  if extent > limit then (size.1 * (limit / extent), size.2 * (limit / extent)) else size

/-- Both sides scaled by a factor. -/
def scaled (factor : ℚ) (size : ℚ × ℚ) : ℚ × ℚ := (factor * size.1, factor * size.2)

variable {size maxSize : ℚ × ℚ}

theorem shrink_eq {extent limit : ℚ} (hextent : 0 < extent) (size : ℚ × ℚ) :
    shrink extent limit size = scaled (min 1 (limit / extent)) size := by
  unfold shrink scaled
  split
  next hlarge =>
    have hfactor : limit / extent ≤ 1 := (div_le_one hextent).mpr hlarge.le
    rw [min_eq_right hfactor, mul_comm size.1, mul_comm size.2]
  next hfits =>
    have hfactor : 1 ≤ limit / extent := (one_le_div hextent).mpr (not_lt.mp hfits)
    rw [min_eq_left hfactor, one_mul, one_mul]

theorem scaled_scaled (first second : ℚ) (size : ℚ × ℚ) :
    scaled second (scaled first size) = scaled (second * first) size := by
  simp [scaled, mul_assoc]

/-- The second step only makes up for what the first one has left. -/
theorem min_mul_min {factor height limit : ℚ} (hfactor : 0 < factor) (hheight : 0 < height) :
    min 1 (limit / (factor * height)) * factor = min factor (limit / height) := by
  rw [min_mul_of_nonneg _ _ hfactor.le, one_mul]
  congr 1
  field_simp

theorem outputSize_eq_none_iff :
    outputSize size maxSize = none ↔ size.1 ≤ maxSize.1 ∧ size.2 ≤ maxSize.2 := by
  simp [outputSize]

section Positive

variable (hsize : 0 < size.1 ∧ 0 < size.2)
include hsize

theorem fitScale_eq_one_iff :
    fitScale size maxSize = 1 ↔ size.1 ≤ maxSize.1 ∧ size.2 ≤ maxSize.2 := by
  rw [fitScale, min_eq_left_iff, le_min_iff, one_le_div hsize.1, one_le_div hsize.2]

/-- A factor below one is one of the two quotients. -/
theorem fitScale_reaches (hne : fitScale size maxSize ≠ 1) :
    fitScale size maxSize * size.1 = maxSize.1 ∨ fitScale size maxSize * size.2 = maxSize.2 := by
  rcases min_choice 1 (min (maxSize.1 / size.1) (maxSize.2 / size.2)) with hone | hquotient
  · exact absurd hone hne
  · rcases min_choice (maxSize.1 / size.1) (maxSize.2 / size.2) with hfirst | hsecond
    · left
      rw [fitScale, hquotient, hfirst, div_mul_cancel₀ _ hsize.1.ne']
    · right
      rw [fitScale, hquotient, hsecond, div_mul_cancel₀ _ hsize.2.ne']

/-- The image keeps its size or goes through the two steps; either way both of
its sides are scaled by the one factor. -/
theorem resizedSize_eq (hmax : 0 < maxSize.1 ∧ 0 < maxSize.2) :
    resizedSize size maxSize = scaled (fitScale size maxSize) size := by
  by_cases hfits : size.1 ≤ maxSize.1 ∧ size.2 ≤ maxSize.2
  · rw [resizedSize, outputSize_eq_none_iff.mpr hfits, (fitScale_eq_one_iff hsize).mpr hfits]
    simp [scaled]
  · have hsteps : resizedSize size maxSize =
        shrink (shrink size.1 maxSize.1 size).2 maxSize.2 (shrink size.1 maxSize.1 size) := by
      rw [resizedSize, outputSize, if_neg hfits]
      rfl
    have hfactor : 0 < min 1 (maxSize.1 / size.1) := lt_min one_pos (div_pos hmax.1 hsize.1)
    have hheight : 0 < (scaled (min 1 (maxSize.1 / size.1)) size).2 := mul_pos hfactor hsize.2
    have htogether : min 1 (maxSize.2 / (scaled (min 1 (maxSize.1 / size.1)) size).2) *
        min 1 (maxSize.1 / size.1) = fitScale size maxSize :=
      (min_mul_min hfactor hsize.2).trans (min_assoc ..)
    rw [hsteps, shrink_eq hsize.1, shrink_eq hheight, scaled_scaled, htogether]

end Positive

/-- An image that does not fit is drawn at the new size. -/
theorem resizeImage_eq [Foundation] {image : UIImage} (himage : imageSize image = size) :
    resizeImage image maxSize =
      if size.1 ≤ maxSize.1 ∧ size.2 ≤ maxSize.2 then some image
      else imageDrawn image (resizedSize size maxSize) := by
  rw [resizeImage, himage]
  split
  next hnone => rw [if_pos (outputSize_eq_none_iff.mp hnone)]
  next drawn hdrawn =>
    have hlarge : ¬ (size.1 ≤ maxSize.1 ∧ size.2 ≤ maxSize.2) := by
      rw [← outputSize_eq_none_iff, hdrawn]
      exact Option.some_ne_none drawn
    rw [if_neg hlarge, resizedSize, hdrawn, Option.getD_some]

/-! ## What comes out -/

/-- For images and limits with an extent, both sides are scaled by the largest
factor up to one with which the image fits; a shrunk image reaches a limit, and
what comes out is left alone when it is resized again. -/
theorem resizeImage_largest_fit [Foundation] (hsize : 0 < size.1 ∧ 0 < size.2)
    (hmax : 0 < maxSize.1 ∧ 0 < maxSize.2) :
    let k := min 1 (min (maxSize.1 / size.1) (maxSize.2 / size.2))
    let output := resizedSize size maxSize
    output = (k * size.1, k * size.2) ∧
      (output.1 ≤ maxSize.1 ∧ output.2 ≤ maxSize.2) ∧
      output.1 / output.2 = size.1 / size.2 ∧
      (output.1 ≤ size.1 ∧ output.2 ≤ size.2) ∧
      ((outputSize size maxSize).isSome → output.1 = maxSize.1 ∨ output.2 = maxSize.2) ∧
      (∀ factor ≤ 1, factor * size.1 ≤ maxSize.1 → factor * size.2 ≤ maxSize.2 → factor ≤ k) ∧
      (∀ image, imageSize image = size → resizeImage image maxSize =
        if size.1 ≤ maxSize.1 ∧ size.2 ≤ maxSize.2 then some image
        else imageDrawn image output) ∧
      outputSize output maxSize = none ∧
      ∀ image, imageSize image = output → resizeImage image maxSize = some image := by
  intro k output
  have houtput : output = (k * size.1, k * size.2) := resizedSize_eq hsize hmax
  have hk : 0 < k := lt_min one_pos (lt_min (div_pos hmax.1 hsize.1) (div_pos hmax.2 hsize.2))
  have hwidth : k ≤ maxSize.1 / size.1 := (min_le_right _ _).trans (min_le_left _ _)
  have hheight : k ≤ maxSize.2 / size.2 := (min_le_right _ _).trans (min_le_right _ _)
  have hfits : output.1 ≤ maxSize.1 ∧ output.2 ≤ maxSize.2 := by
    rw [houtput]
    exact ⟨(le_div_iff₀ hsize.1).mp hwidth, (le_div_iff₀ hsize.2).mp hheight⟩
  have hagain : outputSize output maxSize = none := outputSize_eq_none_iff.mpr hfits
  refine ⟨houtput, hfits, ?_, ?_, ?_, ?_, ?_, hagain, ?_⟩
  · rw [houtput]
    exact mul_div_mul_left _ _ hk.ne'
  · rw [houtput]
    exact ⟨mul_le_of_le_one_left hsize.1.le (min_le_left _ _),
      mul_le_of_le_one_left hsize.2.le (min_le_left _ _)⟩
  · intro hshrunk
    have hone : k ≠ 1 := by
      intro hsame
      rw [outputSize_eq_none_iff.mpr ((fitScale_eq_one_iff hsize).mp hsame)] at hshrunk
      exact absurd hshrunk (by simp)
    rw [houtput]
    exact fitScale_reaches hsize hone
  · intro factor hfactor hwide htall
    exact le_min hfactor (le_min ((le_div_iff₀ hsize.1).mpr hwide)
      ((le_div_iff₀ hsize.2).mpr htall))
  · exact fun image himage => resizeImage_eq himage
  · intro image himage
    rw [resizeImage_eq himage, if_pos hfits]

/-- A picture that is too wide and too tall for the watch. -/
theorem resizeImage_largest_fit_landscape :
    letI : Foundation := .sample
    resizedSize (1792, 920) (448, 368) = (448, 230) ∧
      outputSize (448, 230) (448, 368) = none ∧
        resizeImage ((448, 230) : ℚ × ℚ) (448, 368) = some (448, 230) := by
  let _ : Foundation := .sample
  have hsize : resizedSize (1792, 920) (448, 368) = (448, 230) := by
    decide +kernel
  obtain ⟨-, -, -, -, -, -, -, hagain, hresized⟩ :=
    resizeImage_largest_fit (show 0 < (1792, 920).1 ∧ 0 < (1792, 920).2 by norm_num)
      (show 0 < (448, 368).1 ∧ 0 < (448, 368).2 by norm_num)
  rw [hsize] at hagain
  refine ⟨hsize, hagain, hresized _ hsize.symm⟩

end NewsDay.WatchServer

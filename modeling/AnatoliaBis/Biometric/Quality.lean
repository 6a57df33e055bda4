import AnatoliaBis.App.Types
import AnatoliaBis.Biometric.Detection
import AnatoliaBis.Lib.Laplacian
import AnatoliaBis.Lib.Loops

/-! # Quality of a face

The gates of `biometric::quality` in exact arithmetic. The blur gate takes the variance of the
responses of a discrete Laplacian. They sum to zero whatever the crop shows, so the variance is
the mean of their squares, and it is zero for crops of one shade and for no other.
-/

namespace AnatoliaBis.Biometric

open Loops
open App (BiometricError)

/-! ## The gates -/

section Blur

variable {K : Type} [Field K]

/-- `quality::to_grayscale`: three bytes a pixel, a rest of one or two bytes is left out. -/
def toGrayscale : List UInt8 → List K
  | r :: g :: b :: rest =>
      (0.299 * (r.toNat : K) + 0.587 * (g.toNat : K) + 0.114 * (b.toNat : K)) :: toGrayscale rest
  | _ => []

/-- `i64::clamp`. -/
def clampTo (x lo hi : Int) : Int := max lo (min x hi)

/-- The closure `at` of `laplacian_variance`: coordinates are cut off at the border. -/
def grayAt (gray : List K) (width height : UInt32) (x y : Int) : Option K :=
  let x := clampTo x 0 ((width.toNat : Int) - 1)
  let y := clampTo y 0 ((height.toNat : Int) - 1)
  gray[(y * (width.toNat : Int) + x).toNat]?

/-- The value of one round of the loops of `laplacian_variance`. -/
def response (gray : List K) (width height : UInt32) (x y : Int) : Option K := do
  let centre ← grayAt gray width height x y
  let left ← grayAt gray width height (x - 1) y
  let right ← grayAt gray width height (x + 1) y
  let above ← grayAt gray width height x (y - 1)
  let below ← grayAt gray width height x (y + 1)
  return -4 * centre + left + right + above + below

/-- The variance of the values, which is taken around their mean. -/
def varianceOf (values : List K) : K :=
  let mean := values.sum / values.length
  (values.map fun v => (v - mean) ^ 2).sum / values.length

/-- `quality::laplacian_variance`. -/
def laplacianVariance (gray : List K) (width height : UInt32) : Option K := do
  let responses ← forRange height.toNat (fun responses (y : Nat) =>
    forRange width.toNat (fun responses (x : Nat) => do
      let value ← response gray width height x y
      return responses ++ [value]) responses) []
  return varianceOf responses

end Blur

section Gates

variable {K : Type} [Field K] [LinearOrder K]

/-- `MIN_FACE_SIZE_RATIO`. -/
def minFaceSizeRatio : K := 0.10

/-- `MIN_LAPLACIAN_VARIANCE`. -/
def minLaplacianVariance : K := 60

/-- `MIN_MEAN_BRIGHTNESS`. -/
def minMeanBrightness : K := 40

/-- `MAX_MEAN_BRIGHTNESS`. -/
def maxMeanBrightness : K := 215

/-- `MIN_EYE_SYMMETRY_RATIO`. -/
def minEyeSymmetryRatio : K := 0.35

/-- `quality::check_face_size`. -/
def checkFaceSize (face : FaceBox K) (imageWidth imageHeight : UInt32) :
    Except BiometricError Unit :=
  let shorter : K := (min imageWidth imageHeight).toNat
  if shorter ≤ 0 ∨ face.height / shorter < minFaceSizeRatio then .error .faceTooSmall
  else .ok ()

/-- `quality::check_pose`. -/
def checkPose (face : FaceBox K) : Except BiometricError Unit :=
  let rightEye := face.landmarks 0
  let leftEye := face.landmarks 1
  let nose := face.landmarks 2
  let dRight := |nose.1 - rightEye.1|
  let dLeft := |leftEye.1 - nose.1|
  let shorter := if dRight < dLeft then dRight else dLeft
  let longer := if dRight < dLeft then dLeft else dRight
  if longer ≤ 0 then .error .excessivePose
  else if shorter / longer < minEyeSymmetryRatio then .error .excessivePose
  else .ok ()

/-- `quality::check_detection_confidence`. -/
def checkDetectionConfidence (face : FaceBox K) (minScore : K) : Except BiometricError Unit :=
  if face.score < minScore then .error .lowFaceQuality else .ok ()

/-- `quality::check_blur_and_lighting`. -/
def checkBlurAndLighting (alignedRgb : List UInt8) (size : UInt32) :
    Option (Except BiometricError Unit) := do
  let gray : List K := toGrayscale alignedRgb
  let brightness := gray.sum / gray.length
  if ¬ (minMeanBrightness ≤ brightness ∧ brightness ≤ maxMeanBrightness) then
    return .error .poorLighting
  else
    let variance ← laplacianVariance gray size size
    if variance < minLaplacianVariance then return .error .imageTooBlurry
    else return .ok ()

end Gates

/-! ## The responses -/

open Stencil

/-- The shade of a pixel. -/
def shade {K : Type} [Field K] (gray : List K) (width x y : Nat) : K :=
  gray.getD (y * width + x) 0

/-- Shades of a crop of `w` by `h` pixels, and of one at least. -/
structure IsCrop {K : Type} (gray : List K) (w h : UInt32) : Prop where
  width : 1 ≤ w.toNat
  height : 1 ≤ h.toNat
  length : gray.length = w.toNat * h.toNat

theorem IsCrop.index {K : Type} {gray : List K} {w h : UInt32} (hcrop : IsCrop gray w h)
    {x y : Nat} (hx : x < w.toNat) (hy : y < h.toNat) :
    y * w.toNat + x < gray.length := by
  rw [hcrop.length]
  calc y * w.toNat + x < y * w.toNat + w.toNat := Nat.add_lt_add_left hx _
    _ = (y + 1) * w.toNat := (Nat.succ_mul y w.toNat).symm
    _ ≤ h.toNat * w.toNat := Nat.mul_le_mul_right _ hy
    _ = w.toNat * h.toNat := Nat.mul_comm _ _

theorem IsCrop.map {K : Type} {gray : List K} {w h : UInt32} (hcrop : IsCrop gray w h)
    (f : K → K) : IsCrop (gray.map f) w h :=
  ⟨hcrop.width, hcrop.height, (List.length_map f).trans hcrop.length⟩

theorem IsCrop.reverse {K : Type} {gray : List K} {w h : UInt32} (hcrop : IsCrop gray w h) :
    IsCrop gray.reverse w h :=
  ⟨hcrop.width, hcrop.height, List.length_reverse.trans hcrop.length⟩

section Responses

variable {K : Type} [Field K] {gray : List K} {w h : UInt32}

/-- Every index is one of the buffer. -/
theorem IsCrop.grayAt (hcrop : IsCrop gray w h) {x y : Int} {i j : Nat}
    (hi : clampTo x 0 ((w.toNat : Int) - 1) = i) (hj : clampTo y 0 ((h.toNat : Int) - 1) = j) :
    grayAt gray w h x y = some (shade gray w.toNat i j) := by
  have hw := hcrop.width
  have hh := hcrop.height
  have hx : i < w.toNat := by
    unfold clampTo at hi
    omega
  have hy : j < h.toNat := by
    unfold clampTo at hj
    omega
  have hindex : ((j : Int) * (w.toNat : Int) + (i : Int)).toNat = j * w.toNat + i := by
    rw [← Int.natCast_mul, ← Int.natCast_add, Int.toNat_natCast]
  have hlt := hcrop.index hx hy
  unfold Biometric.grayAt shade
  rw [hi, hj]
  dsimp only
  rw [hindex, List.getD_eq_getElem?_getD, List.getElem?_eq_getElem hlt]
  rfl

/-- The response is that of the grid whose border is continued. -/
theorem IsCrop.response (hcrop : IsCrop gray w h) {x y : Nat} (hx : x < w.toNat)
    (hy : y < h.toNat) :
    response gray w h x y = some (laplacian w.toNat h.toNat (shade gray w.toNat) x y) := by
  have hcentreX : clampTo (x : Int) 0 ((w.toNat : Int) - 1) = x := by
    unfold clampTo
    omega
  have hcentreY : clampTo (y : Int) 0 ((h.toNat : Int) - 1) = y := by
    unfold clampTo
    omega
  have hleft : clampTo ((x : Int) - 1) 0 ((w.toNat : Int) - 1) = (x - 1 : Nat) := by
    unfold clampTo
    omega
  have hright : clampTo ((x : Int) + 1) 0 ((w.toNat : Int) - 1) =
      (min (x + 1) (w.toNat - 1) : Nat) := by
    unfold clampTo
    omega
  have habove : clampTo ((y : Int) - 1) 0 ((h.toNat : Int) - 1) = (y - 1 : Nat) := by
    unfold clampTo
    omega
  have hbelow : clampTo ((y : Int) + 1) 0 ((h.toNat : Int) - 1) =
      (min (y + 1) (h.toNat - 1) : Nat) := by
    unfold clampTo
    omega
  unfold Biometric.response
  rw [hcrop.grayAt hcentreX hcentreY, hcrop.grayAt hleft hcentreY, hcrop.grayAt hright hcentreY,
    hcrop.grayAt hcentreX habove, hcrop.grayAt hcentreX hbelow]
  simp only [Option.bind_eq_bind, Option.bind_some, Option.pure_def, Option.some.injEq]
  unfold laplacian flow
  ring

/-- The responses of a grid, in the order of the loops. -/
def responses (w h : Nat) (v : Nat → Nat → K) : List K :=
  (List.range h).flatMap fun y => (List.range w).flatMap fun x => [laplacian w h v x y]

theorem laplacianVariance_eq (hcrop : IsCrop gray w h) :
    laplacianVariance gray w h =
      some (varianceOf (responses w.toNat h.toNat (shade gray w.toNat))) := by
  have hrow : ∀ y < h.toNat, ∀ out : List K, forRange w.toNat (fun out (x : Nat) => do
        let value ← response gray w h x y
        return out ++ [value]) out =
      some (out ++ (List.range w.toNat).flatMap fun x =>
        [laplacian w.toNat h.toNat (shade gray w.toNat) x y]) := by
    intro y hy
    apply forRange_collect
    intro x hx out
    rw [hcrop.response hx hy]
    rfl
  have hall := forRange_collect _ hrow []
  unfold laplacianVariance
  rw [hall]
  rfl

/-- A sum over the responses goes through the grid row by row. -/
theorem sum_map_responses (w h : Nat) (v : Nat → Nat → K) (f : K → K) :
    ((responses w h v).map f).sum =
      ∑ y ∈ Finset.range h, ∑ x ∈ Finset.range w, f (laplacian w h v x y) := by
  have hrange : ∀ (n : Nat) (g : Nat → List K), (((List.range n).flatMap g).map f).sum =
      ∑ i ∈ Finset.range n, ((g i).map f).sum := by
    intro n g
    induction n with
    | zero => rfl
    | succ n ih =>
        rw [List.range_succ, List.flatMap_append, List.map_append, List.sum_append, ih,
          Finset.sum_range_succ, List.flatMap_singleton]
  unfold responses
  rw [hrange]
  apply Finset.sum_congr rfl
  intro y _
  rw [hrange]
  apply Finset.sum_congr rfl
  intro x _
  exact List.sum_singleton

theorem length_responses (w h : Nat) (v : Nat → Nat → K) :
    (responses w h v).length = w * h := by
  simp [responses, List.length_flatMap, Nat.mul_comm]

/-- The mean square of the responses. -/
def energy (w h : Nat) (v : Nat → Nat → K) : K :=
  (∑ y ∈ Finset.range h, ∑ x ∈ Finset.range w, laplacian w h v x y ^ 2) / (w * h : Nat)

/-- Their mean is zero, so the variance is the mean square. -/
theorem varianceOf_responses (w h : Nat) (v : Nat → Nat → K) :
    varianceOf (responses w h v) = energy w h v := by
  have hsum : (responses w h v).sum = 0 := by
    have hall := sum_map_responses w h v id
    rw [List.map_id] at hall
    exact hall.trans (sum_laplacian w h v)
  unfold varianceOf energy
  rw [hsum, zero_div]
  simp only [sub_zero]
  rw [sum_map_responses, length_responses]

theorem energy_add (w h : Nat) (v : Nat → Nat → K) (k c : K) :
    energy w h (fun x y => k * v x y + c) = k ^ 2 * energy w h v := by
  have hcell : ∀ y x, laplacian w h (fun x y => k * v x y + c) x y ^ 2 =
      k ^ 2 * laplacian w h v x y ^ 2 := by
    intro y x
    rw [laplacian_add, mul_pow]
  unfold energy
  simp only [hcell]
  simp only [← Finset.mul_sum]
  rw [mul_div_assoc]

theorem energy_congr {w h : Nat} {v v' : Nat → Nat → K}
    (hv : ∀ x < w, ∀ y < h, v x y = v' x y) : energy w h v = energy w h v' := by
  have hsum : ∑ y ∈ Finset.range h, ∑ x ∈ Finset.range w, laplacian w h v x y ^ 2 =
      ∑ y ∈ Finset.range h, ∑ x ∈ Finset.range w, laplacian w h v' x y ^ 2 := by
    apply Finset.sum_congr rfl
    intro y hy
    apply Finset.sum_congr rfl
    intro x hx
    rw [laplacian_congr hv (Finset.mem_range.mp hx) (Finset.mem_range.mp hy)]
  unfold energy
  rw [hsum]

theorem energy_reflect (w h : Nat) (v : Nat → Nat → K) :
    energy w h (fun x y => v (w - 1 - x) (h - 1 - y)) = energy w h v := by
  have hsum : ∑ y ∈ Finset.range h, ∑ x ∈ Finset.range w,
        laplacian w h (fun x y => v (w - 1 - x) (h - 1 - y)) x y ^ 2 =
      ∑ y ∈ Finset.range h, ∑ x ∈ Finset.range w, laplacian w h v x y ^ 2 := by
    rw [← Finset.sum_range_reflect (fun y => ∑ x ∈ Finset.range w, laplacian w h v x y ^ 2) h]
    apply Finset.sum_congr rfl
    intro y hy
    rw [← Finset.sum_range_reflect (fun x => laplacian w h v x (h - 1 - y) ^ 2) w]
    apply Finset.sum_congr rfl
    intro x hx
    rw [laplacian_reflect v (Finset.mem_range.mp hx) (Finset.mem_range.mp hy)]
  unfold energy
  rw [hsum]

variable [LinearOrder K] [IsStrictOrderedRing K]

theorem energy_nonneg (w h : Nat) (v : Nat → Nat → K) : 0 ≤ energy w h v :=
  div_nonneg (Finset.sum_nonneg fun _ _ => Finset.sum_nonneg fun _ _ => sq_nonneg _)
    (Nat.cast_nonneg _)

/-- There is no energy where all points are equal, and only there. -/
theorem energy_eq_zero_iff {w h : Nat} (hw : 1 ≤ w) (hh : 1 ≤ h) (v : Nat → Nat → K) :
    energy w h v = 0 ↔ ∀ x < w, ∀ y < h, v x y = v 0 0 := by
  have hsize : ((w * h : Nat) : K) ≠ 0 := by
    have hpos : 0 < w * h := Nat.mul_pos hw hh
    exact Nat.cast_ne_zero.mpr hpos.ne'
  unfold energy
  rw [div_eq_zero_iff, or_iff_left hsize]
  constructor
  · intro hzero
    apply constant_of_laplacian_eq_zero
    intro x hx y hy
    have hrow := (Finset.sum_eq_zero_iff_of_nonneg fun _ _ =>
      Finset.sum_nonneg fun _ _ => sq_nonneg _).mp hzero y (Finset.mem_range.mpr hy)
    have hcell := (Finset.sum_eq_zero_iff_of_nonneg fun _ _ => sq_nonneg _).mp hrow x
      (Finset.mem_range.mpr hx)
    exact pow_eq_zero_iff two_ne_zero |>.mp hcell
  · intro hflat
    apply Finset.sum_eq_zero
    intro y hy
    apply Finset.sum_eq_zero
    intro x hx
    rw [laplacian_eq_zero_of_constant hflat (Finset.mem_range.mp hx) (Finset.mem_range.mp hy)]
    exact zero_pow two_ne_zero

end Responses

/-! ## What the blur gate measures -/

section Sharpness

variable {K : Type} [Field K] {gray : List K} {w h : UInt32}

theorem IsCrop.shade_mem (hcrop : IsCrop gray w h) {x y : Nat} (hx : x < w.toNat)
    (hy : y < h.toNat) : shade gray w.toNat x y ∈ gray := by
  have hlt := hcrop.index hx hy
  unfold shade
  rw [List.getD_eq_getElem?_getD, List.getElem?_eq_getElem hlt]
  exact List.getElem_mem hlt

/-- Every shade is that of a pixel. -/
theorem IsCrop.exists_shade (hcrop : IsCrop gray w h) {v : K} (hv : v ∈ gray) :
    ∃ x < w.toNat, ∃ y < h.toNat, shade gray w.toNat x y = v := by
  rcases List.getElem_of_mem hv with ⟨i, hi, rfl⟩
  have hw : 0 < w.toNat := hcrop.width
  have hsize : i < h.toNat * w.toNat := by
    rw [Nat.mul_comm, ← hcrop.length]
    exact hi
  have hindex : i / w.toNat * w.toNat + i % w.toNat = i := by
    rw [Nat.mul_comm]
    exact Nat.div_add_mod i w.toNat
  refine ⟨i % w.toNat, Nat.mod_lt i hw, i / w.toNat, Nat.div_lt_of_lt_mul ?_, ?_⟩
  · rw [Nat.mul_comm]
    exact hsize
  · unfold shade
    rw [hindex, List.getD_eq_getElem?_getD, List.getElem?_eq_getElem hi]
    rfl

theorem IsCrop.shade_map (hcrop : IsCrop gray w h) (f : K → K) {x y : Nat} (hx : x < w.toNat)
    (hy : y < h.toNat) :
    shade (gray.map f) w.toNat x y = f (shade gray w.toNat x y) := by
  have hlt := hcrop.index hx hy
  unfold shade
  rw [List.getD_eq_getElem?_getD, List.getD_eq_getElem?_getD, List.getElem?_map,
    List.getElem?_eq_getElem hlt]
  rfl

theorem IsCrop.shade_reverse (hcrop : IsCrop gray w h) {x y : Nat} (hx : x < w.toNat)
    (hy : y < h.toNat) :
    shade gray.reverse w.toNat x y =
      shade gray w.toNat (w.toNat - 1 - x) (h.toNat - 1 - y) := by
  have hlt := hcrop.index hx hy
  have hindex : gray.length - 1 - (y * w.toNat + x) =
      (h.toNat - 1 - y) * w.toNat + (w.toNat - 1 - x) := by
    -- the rows below and the rest of the row, together with the pixel itself
    have hrows : h.toNat * w.toNat =
        y * w.toNat + ((h.toNat - 1 - y) * w.toNat + w.toNat) := by
      rw [← Nat.succ_mul, ← Nat.add_mul]
      congr 1
      omega
    rw [hcrop.length, Nat.mul_comm w.toNat, hrows]
    omega
  unfold shade
  rw [List.getD_eq_getElem?_getD, List.getD_eq_getElem?_getD, List.getElem?_reverse hlt, hindex]

variable [LinearOrder K] [IsStrictOrderedRing K]

/-- What the number `variance` tells about a crop. -/
structure Sharpness (gray : List K) (w h : UInt32) (variance : K) : Prop where
  nonneg : 0 ≤ variance
  /-- It is zero for the crops of one shade, and for no other. -/
  flat : variance = 0 ↔ ∀ a ∈ gray, ∀ b ∈ gray, a = b
  /-- More light does not change it, and more contrast raises it by the square. -/
  contrast : ∀ k c, laplacianVariance (gray.map fun v => k * v + c) w h =
    some (k ^ 2 * variance)
  /-- Nor does turning the crop upside down. -/
  turned : laplacianVariance gray.reverse w h = some variance

/-- **The variance measures sharpness.** It reads pixels of the crop only. -/
theorem laplacianVariance_exact (gray : List K) (w h : UInt32) (hcrop : IsCrop gray w h) :
    ∃ variance, laplacianVariance gray w h = some variance ∧ Sharpness gray w h variance := by
  have hvariance : ∀ {gray : List K}, IsCrop gray w h → laplacianVariance gray w h =
      some (energy w.toNat h.toNat (shade gray w.toNat)) := by
    intro gray hcrop
    rw [laplacianVariance_eq hcrop, varianceOf_responses]
  refine ⟨_, hvariance hcrop, ?_⟩
  constructor
  · exact energy_nonneg _ _ _
  · rw [energy_eq_zero_iff hcrop.width hcrop.height]
    constructor
    · intro hflat a ha b hb
      rcases hcrop.exists_shade ha with ⟨x, hx, y, hy, rfl⟩
      rcases hcrop.exists_shade hb with ⟨x', hx', y', hy', rfl⟩
      exact (hflat x hx y hy).trans (hflat x' hx' y' hy').symm
    · intro hequal x hx y hy
      exact hequal _ (hcrop.shade_mem hx hy) _ (hcrop.shade_mem hcrop.width hcrop.height)
  · intro k c
    have hsame : energy w.toNat h.toNat (shade (gray.map fun v => k * v + c) w.toNat) =
        energy w.toNat h.toNat fun x y => k * shade gray w.toNat x y + c :=
      energy_congr fun x hx y hy => hcrop.shade_map _ hx hy
    rw [hvariance (hcrop.map _), hsame, energy_add]
  · have hsame : energy w.toNat h.toNat (shade gray.reverse w.toNat) =
        energy w.toNat h.toNat fun x y =>
          shade gray w.toNat (w.toNat - 1 - x) (h.toNat - 1 - y) :=
      energy_congr fun x hx y hy => hcrop.shade_reverse hx hy
    rw [hvariance hcrop.reverse, hsame, energy_reflect]

/-- Two pixels, one of them lit. -/
theorem laplacianVariance_exact_sample :
    ∃ variance, laplacianVariance [(0 : Rat), 255] 2 1 = some variance ∧
      Sharpness [(0 : Rat), 255] 2 1 variance :=
  laplacianVariance_exact [(0 : Rat), 255] 2 1 ⟨by decide, by decide, by decide⟩

end Sharpness

end AnatoliaBis.Biometric

import AnatoliaBis.Biometric.Alignment
import AnatoliaBis.Lib.Interpolate
import AnatoliaBis.Lib.Loops

/-! # The aligned crop

`biometric::alignment::warp_to_aligned` in exact arithmetic: the transform is inverted, and
every pixel of the crop is looked up where the inverse leads. An index outside the buffer is
a panic, which is `none` here.
-/

namespace AnatoliaBis.Biometric

open Interpolate Loops

/-- `ALIGNED_SIZE`. -/
def alignedSize : Nat := 112

/-- `as u32`, which saturates. -/
def toU32 (x : Int) : UInt32 := UInt32.ofNat (min x.toNat (2 ^ 32 - 1))

/-- `.clamp(0.0, 255.0) as u8`. -/
def toChannel (x : Int) : UInt8 := UInt8.ofNat (min (max x 0) 255).toNat

section Warp

variable {K : Type} [Field K] [LinearOrder K] [FloorRing K]

/-- One round of the loop of `sample_bilinear`. -/
def sampleChannel (src : List UInt8) (w x0 x1 y0 y1 : UInt32) (fx fy : K) (ch : UInt32) :
    Option UInt8 := do
  let p00 ← src[((y0 * w + x0) * 3 + ch).toNat]?
  let p10 ← src[((y0 * w + x1) * 3 + ch).toNat]?
  let p01 ← src[((y1 * w + x0) * 3 + ch).toNat]?
  let p11 ← src[((y1 * w + x1) * 3 + ch).toNat]?
  let top : K := p00.toNat + ((p10.toNat : K) - p00.toNat) * fx
  let bottom : K := p01.toNat + ((p11.toNat : K) - p01.toNat) * fx
  return toChannel (roundAway (top + (bottom - top) * fy))

/-- `sample_bilinear`. -/
def sampleBilinear (src : List UInt8) (w h : UInt32) (x y : K) :
    Option (UInt8 × UInt8 × UInt8) :=
  if x < 0 ∨ y < 0 ∨ ((w - 1).toNat : K) ≤ x ∨ ((h - 1).toNat : K) ≤ y then some (0, 0, 0)
  else do
    let x0 := toU32 ⌊x⌋
    let y0 := toU32 ⌊y⌋
    let x1 := min (x0 + 1) (w - 1)
    let y1 := min (y0 + 1) (h - 1)
    let fx : K := x - x0.toNat
    let fy : K := y - y0.toNat
    let r ← sampleChannel src w x0 x1 y0 y1 fx fy 0
    let g ← sampleChannel src w x0 x1 y0 y1 fx fy 1
    let b ← sampleChannel src w x0 x1 y0 y1 fx fy 2
    return (r, g, b)

def AffineTransform.det (T : AffineTransform K) : K := T.a * T.d - T.b * T.c

/-- `inv_a` to `inv_ty`. -/
def AffineTransform.inverse (T : AffineTransform K) : AffineTransform K where
  a := T.d / T.det
  b := -T.b / T.det
  c := -T.c / T.det
  d := T.a / T.det
  tx := -(T.d / T.det * T.tx + -T.b / T.det * T.ty)
  ty := -(-T.c / T.det * T.tx + T.a / T.det * T.ty)

/-- `out[i] = v`. -/
def writeAt (out : List UInt8) (i : Nat) (v : UInt8) : Option (List UInt8) :=
  if i < out.length then some (out.set i v) else none

def writePixel (out : List UInt8) (i : Nat) (rgb : UInt8 × UInt8 × UInt8) :
    Option (List UInt8) := do
  let out ← writeAt out i rgb.1
  let out ← writeAt out (i + 1) rgb.2.1
  writeAt out (i + 2) rgb.2.2

/-- `warp_to_aligned`. -/
def warpToAligned (src : List UInt8) (srcW srcH : UInt32) (T : AffineTransform K) :
    Option (List UInt8) :=
  let out : List UInt8 := List.replicate (alignedSize * alignedSize * 3) 0
  if |T.det| < 1e-12 then some out
  else
    forRange alignedSize (fun out dy =>
      forRange alignedSize (fun out dx => do
        let s := T.inverse.apply ((dx : K), (dy : K))
        let rgb ← sampleBilinear src srcW srcH s.1 s.2
        writePixel out ((dy * alignedSize + dx) * 3) rgb) out) out

end Warp

/-! ## Images -/

/-- Interleaved RGB: three bytes a pixel, at least one pixel, and indices that are `u32`. -/
structure IsImage (src : List UInt8) (w h : UInt32) : Prop where
  width : 1 ≤ w.toNat
  height : 1 ≤ h.toNat
  length : src.length = w.toNat * h.toNat * 3
  small : src.length < 2 ^ 32

/-- One of the three values of a pixel. -/
def channel (rgb : UInt8 × UInt8 × UInt8) : Fin 3 → UInt8
  | 0 => rgb.1
  | 1 => rgb.2.1
  | 2 => rgb.2.2

/-- The value of a channel in the pixel `(x, y)`. -/
def pixelAt (src : List UInt8) (w : Nat) (c : Fin 3) (x y : Nat) : Nat :=
  (src.getD ((y * w + x) * 3 + c) 0).toNat

section Samples

variable {K : Type} [Field K] [LinearOrder K] [FloorRing K]

/-- The bilinear sample at a point of the plane; black outside the sampled area. -/
def sampleAt (src : List UInt8) (w h : Nat) (c : Fin 3) (z : K × K) : Int :=
  if 0 ≤ z.1 ∧ z.1 < w - 1 ∧ 0 ≤ z.2 ∧ z.2 < h - 1 then
    roundAway (bilinear (fun x y => (pixelAt src w c x y : K)) z.1 z.2)
  else 0

end Samples

variable {src : List UInt8} {w h : UInt32}

/-- The index arithmetic of `u32` is exact within the image. -/
theorem IsImage.index (himage : IsImage src w h) {x y c : UInt32} (hx : x.toNat < w.toNat)
    (hy : y.toNat < h.toNat) (hc : c.toNat < 3) :
    ((y * w + x) * 3 + c).toNat = (y.toNat * w.toNat + x.toNat) * 3 + c.toNat ∧
      (y.toNat * w.toNat + x.toNat) * 3 + c.toNat < src.length := by
  have hpixel : y.toNat * w.toNat + x.toNat < w.toNat * h.toNat := by
    calc y.toNat * w.toNat + x.toNat < y.toNat * w.toNat + w.toNat := by omega
      _ = (y.toNat + 1) * w.toNat := by ring
      _ ≤ h.toNat * w.toNat := Nat.mul_le_mul_right _ hy
      _ = w.toNat * h.toNat := Nat.mul_comm _ _
  have hlength := himage.length
  have hsmall := himage.small
  have hrow : (y * w).toNat = y.toNat * w.toNat := by
    rw [UInt32.toNat_mul, Nat.mod_eq_of_lt]
    omega
  have hcolumn : (y * w + x).toNat = y.toNat * w.toNat + x.toNat := by
    rw [UInt32.toNat_add, hrow, Nat.mod_eq_of_lt]
    omega
  have htriple : ((y * w + x) * 3).toNat = (y.toNat * w.toNat + x.toNat) * 3 := by
    rw [UInt32.toNat_mul, hcolumn, show (3 : UInt32).toNat = 3 from rfl, Nat.mod_eq_of_lt]
    omega
  constructor
  · rw [UInt32.toNat_add, htriple, Nat.mod_eq_of_lt]
    omega
  · omega

/-- What is read there. -/
theorem IsImage.getElem (himage : IsImage src w h) {x y ch : UInt32} {c : Fin 3}
    (hx : x.toNat < w.toNat) (hy : y.toNat < h.toNat) (hc : ch.toNat = c) :
    ∃ p, src[((y * w + x) * 3 + ch).toNat]? = some p ∧
      p.toNat = pixelAt src w.toNat c x.toNat y.toNat := by
  rcases himage.index hx hy (hc ▸ c.isLt) with ⟨hindex, hlt⟩
  rw [hc] at hindex hlt
  refine ⟨_, ?_, rfl⟩
  rw [hindex, List.getD_eq_getElem?_getD, List.getElem?_eq_getElem hlt]
  rfl

/-! ## One sample -/

section Sampling

variable {K : Type} [Field K] [LinearOrder K] [FloorRing K] {x y : K}

/-- Inside the area the two columns, or rows, are in the image, and the clamp does nothing. -/
structure Neighbours (w : UInt32) (x : K) : Prop where
  first : (toU32 ⌊x⌋).toNat = ⌊x⌋₊
  second : (min (toU32 ⌊x⌋ + 1) (w - 1)).toNat = ⌊x⌋₊ + 1
  inside : ⌊x⌋₊ + 1 < w.toNat
  fraction : x - (toU32 ⌊x⌋).toNat = Int.fract x

theorem sampleChannel_eq (himage : IsImage src w h) (hx : Neighbours w x) (hy : Neighbours h y)
    {ch : UInt32} {c : Fin 3} (hc : ch.toNat = c) :
    sampleChannel src w (toU32 ⌊x⌋) (min (toU32 ⌊x⌋ + 1) (w - 1)) (toU32 ⌊y⌋)
        (min (toU32 ⌊y⌋ + 1) (h - 1)) (x - (toU32 ⌊x⌋).toNat) (y - (toU32 ⌊y⌋).toNat) ch =
      some (toChannel (roundAway
        (bilinear (fun x y => (pixelAt src w.toNat c x y : K)) x y))) := by
  have hx0 : (toU32 ⌊x⌋).toNat < w.toNat := by
    rw [hx.first]
    exact Nat.lt_of_succ_lt hx.inside
  have hx1 : (min (toU32 ⌊x⌋ + 1) (w - 1)).toNat < w.toNat := by
    rw [hx.second]
    exact hx.inside
  have hy0 : (toU32 ⌊y⌋).toNat < h.toNat := by
    rw [hy.first]
    exact Nat.lt_of_succ_lt hy.inside
  have hy1 : (min (toU32 ⌊y⌋ + 1) (h - 1)).toNat < h.toNat := by
    rw [hy.second]
    exact hy.inside
  rcases himage.getElem hx0 hy0 hc with ⟨p00, h00, hp00⟩
  rcases himage.getElem hx1 hy0 hc with ⟨p10, h10, hp10⟩
  rcases himage.getElem hx0 hy1 hc with ⟨p01, h01, hp01⟩
  rcases himage.getElem hx1 hy1 hc with ⟨p11, h11, hp11⟩
  unfold sampleChannel
  rw [h00, h10, h01, h11, hx.fraction, hy.fraction, bilinear_eq]
  simp only [Option.bind_eq_bind, Option.bind_some, hp00, hp10, hp01, hp11, hx.first, hx.second,
    hy.first, hy.second]
  rfl

theorem toNat_sub_one (hw : 1 ≤ w.toNat) : (w - 1).toNat = w.toNat - 1 :=
  UInt32.toNat_sub_of_le _ _ (UInt32.le_iff_toNat_le.mpr hw)

theorem toNat_toU32_floor (h : ⌊x⌋₊ < 2 ^ 32) : (toU32 ⌊x⌋).toNat = ⌊x⌋₊ := by
  unfold toU32
  rw [Int.floor_toNat, UInt32.toNat_ofNat']
  omega

theorem neighbours (hw : 1 ≤ w.toNat) (hx : 0 ≤ x) (hlt : x < ((w - 1).toNat : K)) :
    Neighbours w x := by
  have hfloor : ⌊x⌋₊ < (w - 1).toNat := (Nat.floor_lt hx).mpr hlt
  have hsub := toNat_sub_one hw
  have hbound := w.toNat_lt
  have hfirst : (toU32 ⌊x⌋).toNat = ⌊x⌋₊ := toNat_toU32_floor (by omega)
  have hnext : (toU32 ⌊x⌋ + 1).toNat = ⌊x⌋₊ + 1 := by
    rw [UInt32.toNat_add, hfirst, show (1 : UInt32).toNat = 1 from rfl, Nat.mod_eq_of_lt]
    omega
  constructor
  · exact hfirst
  · have hle : toU32 ⌊x⌋ + 1 ≤ w - 1 := by
      rw [UInt32.le_iff_toNat_le, hnext]
      exact hfloor
    have hmin : min (toU32 ⌊x⌋ + 1) (w - 1) = toU32 ⌊x⌋ + 1 := if_pos hle
    rw [hmin, hnext]
  · omega
  · rw [hfirst, natCast_floor_eq_intCast_floor hx]
    rfl

variable [IsStrictOrderedRing K]

theorem bilinear_pixelAt_mem (src : List UInt8) (w : Nat) (c : Fin 3) (x y : K) :
    bilinear (fun x y => (pixelAt src w c x y : K)) x y ∈ Set.Icc (0 : K) 255 := by
  apply bilinear_mem
  intro i _ j _
  constructor
  · exact Nat.cast_nonneg _
  · have hle : pixelAt src w c i j ≤ 255 := Nat.le_of_lt_succ (UInt8.toNat_lt _)
    exact_mod_cast hle

theorem toNat_toChannel {v : Int} (h0 : 0 ≤ v) (h1 : v ≤ 255) :
    ((toChannel v).toNat : Int) = v := by
  unfold toChannel
  rw [UInt8.toNat_ofNat']
  omega

/-- A sample reads only pixels of the image, and is the value at its point. -/
theorem sampleBilinear_eq (himage : IsImage src w h) (x y : K) :
    ∃ rgb, sampleBilinear src w h x y = some rgb ∧
      ∀ c, ((channel rgb c).toNat : Int) = sampleAt src w.toNat h.toNat c (x, y) := by
  have hw : ((w - 1).toNat : K) = (w.toNat : K) - 1 := by
    rw [toNat_sub_one himage.width, Nat.cast_sub himage.width, Nat.cast_one]
  have hh : ((h - 1).toNat : K) = (h.toNat : K) - 1 := by
    rw [toNat_sub_one himage.height, Nat.cast_sub himage.height, Nat.cast_one]
  unfold sampleBilinear sampleAt
  by_cases hout : x < 0 ∨ y < 0 ∨ ((w - 1).toNat : K) ≤ x ∨ ((h - 1).toNat : K) ≤ y
  · have harea : ¬ (0 ≤ x ∧ x < (w.toNat : K) - 1 ∧ 0 ≤ y ∧ y < (h.toNat : K) - 1) := by
      rw [hw, hh] at hout
      rintro ⟨hx0, hx1, hy0, hy1⟩
      rcases hout with hlt | hlt | hle | hle
      · exact absurd hx0 hlt.not_ge
      · exact absurd hy0 hlt.not_ge
      · exact absurd hx1 hle.not_gt
      · exact absurd hy1 hle.not_gt
    refine ⟨(0, 0, 0), if_pos hout, fun c => ?_⟩
    rw [if_neg harea]
    fin_cases c <;> rfl
  · have hin := hout
    simp only [not_or, not_lt, not_le] at hin
    rcases hin with ⟨hx0, hy0, hx1, hy1⟩
    have hx := neighbours himage.width hx0 hx1
    have hy := neighbours himage.height hy0 hy1
    rw [if_neg hout]
    dsimp only
    rw [sampleChannel_eq himage hx hy (c := 0) rfl, sampleChannel_eq himage hx hy (c := 1) rfl,
      sampleChannel_eq himage hx hy (c := 2) rfl]
    refine ⟨_, rfl, fun c => ?_⟩
    rw [if_pos ⟨hx0, hw ▸ hx1, hy0, hh ▸ hy1⟩]
    have hmem := bilinear_pixelAt_mem src w.toNat c x y
    have hvalue := toNat_toChannel (le_roundAway (n := 0) hmem.1 (by exact_mod_cast hmem.1))
      (roundAway_le (n := 255) hmem.1 (by exact_mod_cast hmem.2))
    fin_cases c
    · exact hvalue
    · exact hvalue
    · exact hvalue

/-- Between two values of the channel. -/
def InRange (src : List UInt8) (w h : Nat) (c : Fin 3) (v : Int) : Prop :=
  (∃ i < w, ∃ j < h, (pixelAt src w c i j : Int) ≤ v) ∧
    ∃ i < w, ∃ j < h, v ≤ (pixelAt src w c i j : Int)

theorem sampleAt_inRange (hw : 1 ≤ w.toNat) (hh : 1 ≤ h.toNat) (c : Fin 3) (z : K × K) :
    sampleAt src w.toNat h.toNat c z = 0 ∨
      InRange src w.toNat h.toNat c (sampleAt src w.toNat h.toNat c z) := by
  unfold sampleAt
  split_ifs with harea
  · right
    rcases harea with ⟨hx0, hx1, hy0, hy1⟩
    have hx : Neighbours w z.1 := by
      apply neighbours hw hx0
      rw [toNat_sub_one hw, Nat.cast_sub hw, Nat.cast_one]
      exact hx1
    have hy : Neighbours h z.2 := by
      apply neighbours hh hy0
      rw [toNat_sub_one hh, Nat.cast_sub hh, Nat.cast_one]
      exact hy1
    have hnonneg := (bilinear_pixelAt_mem src w.toNat c z.1 z.2).1
    have hcolumn : ∀ i ∈ [⌊z.1⌋₊, ⌊z.1⌋₊ + 1], i < w.toNat := by
      intro i hi
      have hlast := hx.inside
      simp only [List.mem_cons, List.not_mem_nil, or_false] at hi
      omega
    have hrow : ∀ j ∈ [⌊z.2⌋₊, ⌊z.2⌋₊ + 1], j < h.toNat := by
      intro j hj
      have hlast := hy.inside
      simp only [List.mem_cons, List.not_mem_nil, or_false] at hj
      omega
    rcases exists_bilinear_between (fun x y => (pixelAt src w.toNat c x y : K)) z.1 z.2 with
      ⟨⟨i, hi, j, hj, hlow⟩, i', hi', j', hj', hhigh⟩
    rw [← Int.cast_natCast] at hlow hhigh
    constructor
    · exact ⟨i, hcolumn i hi, j, hrow j hj, le_roundAway hnonneg hlow⟩
    · exact ⟨i', hcolumn i' hi', j', hrow j' hj', roundAway_le hnonneg hhigh⟩
  · exact Or.inl rfl

end Sampling

/-! ## The loops -/

/-- The pixels before `k` are written. -/
structure Written (px : Nat → Nat → UInt8 × UInt8 × UInt8) (k : Nat) (out : List UInt8) : Prop where
  length : out.length = alignedSize * alignedSize * 3
  values : ∀ x y, x < alignedSize → y * alignedSize + x < k → ∀ c : Fin 3,
    out[(y * alignedSize + x) * 3 + c]? = some (channel (px x y) c)

theorem writePixel_eq {out : List UInt8} {i : Nat} (h : i + 2 < out.length)
    (rgb : UInt8 × UInt8 × UInt8) :
    writePixel out i rgb =
      some (((out.set i rgb.1).set (i + 1) rgb.2.1).set (i + 2) rgb.2.2) := by
  unfold writePixel writeAt
  rw [if_pos (by omega)]
  simp only [Option.bind_eq_bind, Option.bind_some, List.length_set]
  rw [if_pos (by omega), Option.bind_some, List.length_set, List.length_set, if_pos h]

theorem Written.step {px : Nat → Nat → UInt8 × UInt8 × UInt8} {dx dy : Nat} {out : List UInt8}
    (h : Written px (dy * alignedSize + dx) out) (hx : dx < alignedSize) (hy : dy < alignedSize) :
    ∃ out', writePixel out ((dy * alignedSize + dx) * 3) (px dx dy) = some out' ∧
      Written px (dy * alignedSize + dx + 1) out' := by
  have hlength := h.length
  unfold alignedSize at hx hy hlength
  have hlt : (dy * alignedSize + dx) * 3 + 2 < out.length := by
    unfold alignedSize
    omega
  refine ⟨_, writePixel_eq hlt (px dx dy), ?_, ?_⟩
  · rw [List.length_set, List.length_set, List.length_set]
    exact h.length
  · intro x y hx' hbefore c
    have hc := c.isLt
    unfold alignedSize at hx' hlt
    by_cases hsame : y * alignedSize + x = dy * alignedSize + dx
    · have hxy : x = dx ∧ y = dy := by
        unfold alignedSize at hsame
        omega
      rcases hxy with ⟨rfl, rfl⟩
      unfold alignedSize
      fin_cases c
      · simp [channel, show (y * 112 + x) * 3 < out.length by omega]
      · simp [channel, show (y * 112 + x) * 3 + 1 < out.length by omega]
      · simp [channel, show (y * 112 + x) * 3 + 2 < out.length by omega]
    · have hold := h.values x y (by unfold alignedSize; exact hx') (by omega) c
      unfold alignedSize at hsame hold ⊢
      rw [List.getElem?_set_ne (by omega), List.getElem?_set_ne (by omega),
        List.getElem?_set_ne (by omega)]
      exact hold

/-- The loops write every pixel, where its value can be had. -/
theorem loops_write {sample : Nat → Nat → Option (UInt8 × UInt8 × UInt8)}
    {px : Nat → Nat → UInt8 × UInt8 × UInt8} (hpx : ∀ dx dy, sample dx dy = some (px dx dy))
    {out : List UInt8} (hlength : out.length = alignedSize * alignedSize * 3) :
    ∃ out', forRange alignedSize (fun out dy => forRange alignedSize (fun out dx => do
        let rgb ← sample dx dy
        writePixel out ((dy * alignedSize + dx) * 3) rgb) out) out = some out' ∧
      Written px (alignedSize * alignedSize) out' := by
  apply forRange_invariant fun dy out => Written px (dy * alignedSize) out
  · intro dy hy out hout
    rw [Nat.succ_mul]
    refine forRange_invariant (fun dx out => Written px (dy * alignedSize + dx) out) ?_ hout
    intro dx hx out hout
    rcases hout.step hx hy with ⟨out', hwrite, hwritten⟩
    refine ⟨out', ?_, hwritten⟩
    rw [hpx dx dy]
    exact hwrite
  · constructor
    · exact hlength
    · intro x y _ hlt
      omega

/-! ## The inverse -/

section Inverse

variable {K : Type} [Field K]

/-- Exactly one point is mapped to a pixel. -/
theorem apply_eq_iff {T : AffineTransform K} (h : T.det ≠ 0) (z p : K × K) :
    T.apply z = p ↔ z = T.inverse.apply p := by
  have hdet : (T.a * T.d - T.b * T.c) * T.det⁻¹ = 1 := mul_inv_cancel₀ h
  constructor
  · rintro rfl
    unfold AffineTransform.inverse AffineTransform.apply
    ext
    · dsimp only
      linear_combination -z.1 * hdet
    · dsimp only
      linear_combination -z.2 * hdet
  · rintro rfl
    unfold AffineTransform.inverse AffineTransform.apply
    ext
    · dsimp only
      linear_combination (p.1 - T.tx) * hdet
    · dsimp only
      linear_combination (p.2 - T.ty) * hdet

end Inverse

/-- **The aligned crop.** Every index is one of the image, so the crop is returned; its
values are zero or between two of their channel, and each one is the bilinear sample at the
only point that the transform maps to its pixel, or black outside the sampled area. -/
theorem warp_samples {K : Type} [Field K] [LinearOrder K] [IsStrictOrderedRing K] [FloorRing K]
    (src : List UInt8) (w h : UInt32) (himage : IsImage src w h) (T : AffineTransform K) :
    ∃ out, warpToAligned src w h T = some out ∧ out.length = 112 * 112 * 3 ∧
      ∀ x y : Nat, x < 112 → y < 112 → ∃ v : Fin 3 → UInt8,
        (∀ c : Fin 3, out[(y * 112 + x) * 3 + c]? = some (v c) ∧
          (v c = 0 ∨ InRange src w.toNat h.toNat c (v c).toNat)) ∧
        (1e-12 ≤ |T.det| → ∃ z : K × K, T.apply z = ((x : K), (y : K)) ∧
          (∀ z', T.apply z' = ((x : K), (y : K)) → z' = z) ∧
          ∀ c : Fin 3, ((v c).toNat : Int) = sampleAt src w.toNat h.toNat c z) := by
  unfold warpToAligned
  dsimp only
  split_ifs with hdet
  · refine ⟨_, rfl, List.length_replicate, fun x y hx hy => ⟨fun _ => 0, fun c => ?_, ?_⟩⟩
    · have hc := c.isLt
      refine ⟨?_, Or.inl rfl⟩
      rw [List.getElem?_replicate, if_pos]
      unfold alignedSize
      omega
    · intro hle
      exact absurd hdet hle.not_gt
  · have hregular : T.det ≠ 0 := by
      intro hzero
      rw [hzero, abs_zero] at hdet
      exact hdet (by norm_num)
    choose px hpx hvalue using fun dx dy : Nat => sampleBilinear_eq himage
      (T.inverse.apply ((dx : K), (dy : K))).1 (T.inverse.apply ((dx : K), (dy : K))).2
    rcases loops_write hpx List.length_replicate with ⟨out, hrun, hout⟩
    refine ⟨out, hrun, hout.length, fun x y hx hy => ⟨channel (px x y), fun c => ⟨?_, ?_⟩, ?_⟩⟩
    · exact hout.values x y hx (by unfold alignedSize; omega) c
    · rcases sampleAt_inRange himage.width himage.height c
        (T.inverse.apply ((x : K), (y : K))) with hzero | hrange
      · left
        have hnat := (hvalue x y c).trans hzero
        apply UInt8.toNat_inj.mp
        rw [Int.natCast_eq_zero.mp hnat]
        rfl
      · right
        rw [← Prod.mk.eta (p := T.inverse.apply ((x : K), (y : K))), ← hvalue x y c] at hrange
        exact hrange
    · intro _
      refine ⟨T.inverse.apply ((x : K), (y : K)), ?_, ?_, hvalue x y⟩
      · exact (apply_eq_iff hregular _ _).mpr rfl
      · intro z' hz'
        exact (apply_eq_iff hregular _ _).mp hz'

/-- Four pixels, turned upside down. -/
theorem warp_samples_sample :
    ∃ out, warpToAligned (K := Rat) [1, 2, 3, 4, 5, 6, 7, 8, 9, 10, 11, 12] 2 2
        ⟨1, 0, 0, -1, 0, 1⟩ = some out ∧ out.length = 112 * 112 * 3 := by
  rcases warp_samples (K := Rat) [1, 2, 3, 4, 5, 6, 7, 8, 9, 10, 11, 12] 2 2
    ⟨by decide, by decide, by decide, by decide⟩ ⟨1, 0, 0, -1, 0, 1⟩ with ⟨out, hrun, hlength, -⟩
  exact ⟨out, hrun, hlength⟩

end AnatoliaBis.Biometric

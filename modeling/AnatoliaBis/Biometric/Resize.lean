import AnatoliaBis.Biometric.Warp

/-! # Resizing

`biometric::detection::resize_bilinear_rgb` in exact arithmetic. The centres of the pixels of
the result are mapped to the source, where they can lie up to half a pixel outside: the
coordinate is cut off at zero, and the second neighbour at the last row or column. So the
sample is the bilinear one over the source continued by its last row and column.
-/

namespace AnatoliaBis.Biometric

open Interpolate Loops

section Resize

variable (K : Type) [Field K] [LinearOrder K] [FloorRing K]

/-- `resize_bilinear_rgb`. The innermost loop computes what `sample_bilinear` does. -/
def resizeBilinearRgb (src : List UInt8) (srcW srcH dstW dstH : UInt32) : Option (List UInt8) :=
  let out : List UInt8 := List.replicate (dstW * dstH * 3).toNat 0
  let xRatio : K := (srcW.toNat : K) / dstW.toNat
  let yRatio : K := (srcH.toNat : K) / dstH.toNat
  forRange dstH.toNat (fun out dy =>
    let sy := max (((dy : K) + half) * yRatio - half) 0
    let y0 := toU32 ⌊sy⌋
    let y1 := min (y0 + 1) (srcH - 1)
    let fy : K := sy - y0.toNat
    forRange dstW.toNat (fun out dx =>
      let sx := max (((dx : K) + half) * xRatio - half) 0
      let x0 := toU32 ⌊sx⌋
      let x1 := min (x0 + 1) (srcW - 1)
      let fx : K := sx - x0.toNat
      forRange 3 (fun out ch => do
        let value ← sampleChannel src srcW x0 x1 y0 y1 fx fy (UInt32.ofNat ch)
        writeAt out ((UInt32.ofNat dy * dstW + UInt32.ofNat dx) * 3 + UInt32.ofNat ch).toNat value)
        out) out) out

/-- `sx` and `sy`: where the centre of the pixel `d` of `dst` lies among `src` pixels. -/
def sourceAt (src dst : UInt32) (d : Nat) : K :=
  max (((d : K) + half) * ((src.toNat : K) / dst.toNat) - half) 0

/-- `value`, which the round of the innermost loop writes. -/
def resizedChannel (src : List UInt8) (srcW srcH dstW dstH : UInt32) (dx dy ch : Nat) :
    Option UInt8 :=
  let sx := sourceAt K srcW dstW dx
  let sy := sourceAt K srcH dstH dy
  sampleChannel src srcW (toU32 ⌊sx⌋) (min (toU32 ⌊sx⌋ + 1) (srcW - 1)) (toU32 ⌊sy⌋)
    (min (toU32 ⌊sy⌋ + 1) (srcH - 1)) (sx - (toU32 ⌊sx⌋).toNat) (sy - (toU32 ⌊sy⌋).toNat)
    (UInt32.ofNat ch)

end Resize

/-! ## One sample -/

/-- The image, continued by its last row and column. -/
def extendedAt (src : List UInt8) (w h : Nat) (c : Fin 3) (x y : Nat) : Nat :=
  pixelAt src w c (min x (w - 1)) (min y (h - 1))

section Sampling

variable {K : Type} [Field K] [LinearOrder K] [FloorRing K] {src : List UInt8} {w h : UInt32}
  {x y : K}

/-- Where the first column, or row, is in the image, the second is the next one or the same. -/
structure Clamped (w : UInt32) (x : K) : Prop where
  first : (toU32 ⌊x⌋).toNat = min ⌊x⌋₊ (w.toNat - 1)
  second : (min (toU32 ⌊x⌋ + 1) (w - 1)).toNat = min (⌊x⌋₊ + 1) (w.toNat - 1)
  inside : ⌊x⌋₊ < w.toNat
  fraction : x - (toU32 ⌊x⌋).toNat = Int.fract x

theorem clamped (hx : 0 ≤ x) (hlt : x < (w.toNat : K)) : Clamped w x := by
  have hfloor : ⌊x⌋₊ < w.toNat := (Nat.floor_lt hx).mpr hlt
  have hbound := w.toNat_lt
  have hfirst : (toU32 ⌊x⌋).toNat = ⌊x⌋₊ := toNat_toU32_floor (by omega)
  have hsub : (w - 1).toNat = w.toNat - 1 := toNat_sub_one (by omega)
  have hnext : (toU32 ⌊x⌋ + 1).toNat = ⌊x⌋₊ + 1 := by
    rw [UInt32.toNat_add, hfirst, show (1 : UInt32).toNat = 1 from rfl, Nat.mod_eq_of_lt]
    omega
  constructor
  · omega
  · by_cases hle : toU32 ⌊x⌋ + 1 ≤ w - 1
    · have hmin : min (toU32 ⌊x⌋ + 1) (w - 1) = toU32 ⌊x⌋ + 1 := if_pos hle
      rw [UInt32.le_iff_toNat_le] at hle
      rw [hmin]
      omega
    · -- past the border the last one is read twice
      have hmin : min (toU32 ⌊x⌋ + 1) (w - 1) = w - 1 := if_neg hle
      rw [UInt32.le_iff_toNat_le] at hle
      rw [hmin]
      omega
  · exact hfloor
  · rw [hfirst, natCast_floor_eq_intCast_floor hx]
    rfl

/-- The four reads are of the image, and give the sample of the continued one. -/
theorem sampleChannel_clamped (himage : IsImage src w h) (hx : Clamped w x) (hy : Clamped h y)
    {ch : UInt32} {c : Fin 3} (hc : ch.toNat = c) :
    sampleChannel src w (toU32 ⌊x⌋) (min (toU32 ⌊x⌋ + 1) (w - 1)) (toU32 ⌊y⌋)
        (min (toU32 ⌊y⌋ + 1) (h - 1)) (x - (toU32 ⌊x⌋).toNat) (y - (toU32 ⌊y⌋).toNat) ch =
      some (toChannel (roundAway
        (bilinear (fun i j => (extendedAt src w.toNat h.toNat c i j : K)) x y))) := by
  have hw := himage.width
  have hh := himage.height
  have hx0 : (toU32 ⌊x⌋).toNat < w.toNat := by
    rw [hx.first]
    omega
  have hx1 : (min (toU32 ⌊x⌋ + 1) (w - 1)).toNat < w.toNat := by
    rw [hx.second]
    omega
  have hy0 : (toU32 ⌊y⌋).toNat < h.toNat := by
    rw [hy.first]
    omega
  have hy1 : (min (toU32 ⌊y⌋ + 1) (h - 1)).toNat < h.toNat := by
    rw [hy.second]
    omega
  rcases himage.getElem hx0 hy0 hc with ⟨p00, h00, hp00⟩
  rcases himage.getElem hx1 hy0 hc with ⟨p10, h10, hp10⟩
  rcases himage.getElem hx0 hy1 hc with ⟨p01, h01, hp01⟩
  rcases himage.getElem hx1 hy1 hc with ⟨p11, h11, hp11⟩
  unfold sampleChannel
  rw [h00, h10, h01, h11, hx.fraction, hy.fraction, bilinear_eq]
  simp only [Option.bind_eq_bind, Option.bind_some, hp00, hp10, hp01, hp11, hx.first, hx.second,
    hy.first, hy.second]
  rfl

variable [IsStrictOrderedRing K]

/-- The centre of a pixel of the result lies before the end of the source. -/
theorem sourceAt_clamped {dst : UInt32} {d : Nat} (hw : 1 ≤ w.toNat) (hd : d < dst.toNat) :
    Clamped w (sourceAt K w dst d) := by
  have hdst : (0 : K) < dst.toNat := Nat.cast_pos.mpr (Nat.zero_lt_of_lt hd)
  have hsrc : (1 : K) ≤ w.toNat := Nat.one_le_cast.mpr hw
  have hhalf : (half : K) = 1 / 2 := rfl
  have hcentre : (d : K) + half ≤ dst.toNat := by
    have hnext : (d : K) + 1 ≤ dst.toNat := by exact_mod_cast hd
    linarith
  have hscaled : ((d : K) + half) * ((w.toNat : K) / dst.toNat) ≤ w.toNat := by
    calc ((d : K) + half) * ((w.toNat : K) / dst.toNat)
        ≤ dst.toNat * ((w.toNat : K) / dst.toNat) :=
          mul_le_mul_of_nonneg_right hcentre (div_nonneg (Nat.cast_nonneg _) hdst.le)
      _ = w.toNat := mul_div_cancel₀ _ hdst.ne'
  apply clamped
  · exact le_max_right _ _
  · apply max_lt
    · linarith
    · linarith

/-- The value of the result at a pixel. -/
def resizedAt (K : Type) [Field K] [LinearOrder K] [FloorRing K] (src : List UInt8)
    (w h dstW dstH : UInt32) (c : Fin 3) (dx dy : Nat) : UInt8 :=
  toChannel (roundAway (bilinear (fun i j => (extendedAt src w.toNat h.toNat c i j : K))
    (sourceAt K w dstW dx) (sourceAt K h dstH dy)))

theorem resizedAt_inRange (hw : 1 ≤ w.toNat) (hh : 1 ≤ h.toNat) (dstW dstH : UInt32) (c : Fin 3)
    (dx dy : Nat) :
    InRange src w.toNat h.toNat c (resizedAt K src w h dstW dstH c dx dy).toNat := by
  let value : Nat → Nat → K := fun i j => (extendedAt src w.toNat h.toNat c i j : K)
  have hmem :
      bilinear value (sourceAt K w dstW dx) (sourceAt K h dstH dy) ∈ Set.Icc (0 : K) 255 := by
    apply bilinear_mem
    intro i _ j _
    constructor
    · exact Nat.cast_nonneg _
    · have hle : extendedAt src w.toNat h.toNat c i j ≤ 255 := Nat.le_of_lt_succ (UInt8.toNat_lt _)
      show ((extendedAt src w.toNat h.toNat c i j : Nat) : K) ≤ 255
      exact_mod_cast hle
  have hchannel : ((resizedAt K src w h dstW dstH c dx dy).toNat : Int) =
      roundAway (bilinear value (sourceAt K w dstW dx) (sourceAt K h dstH dy)) :=
    toNat_toChannel (le_roundAway (n := 0) hmem.1 (by exact_mod_cast hmem.1))
      (roundAway_le (n := 255) hmem.1 (by exact_mod_cast hmem.2))
  have hcolumn (i : Nat) : min i (w.toNat - 1) < w.toNat := by omega
  have hrow (j : Nat) : min j (h.toNat - 1) < h.toNat := by omega
  rcases exists_bilinear_between value (sourceAt K w dstW dx) (sourceAt K h dstH dy) with
    ⟨⟨i, -, j, -, hlow⟩, i', -, j', -, hhigh⟩
  rw [hchannel]
  constructor
  · refine ⟨_, hcolumn i, _, hrow j, le_roundAway hmem.1 ?_⟩
    rw [Int.cast_natCast]
    exact hlow
  · refine ⟨_, hcolumn i', _, hrow j', roundAway_le hmem.1 ?_⟩
    rw [Int.cast_natCast]
    exact hhigh

end Sampling

/-! ## The loops -/

/-- The value `(x, y, c)` is at one index, and nothing else is. -/
theorem index_inj {w x y x' y' c c' : Nat} (hx : x < w) (hx' : x' < w) (hc : c < 3) (hc' : c' < 3)
    (h : (y * w + x) * 3 + c = (y' * w + x') * 3 + c') : x = x' ∧ y = y' ∧ c = c' := by
  have hpixel : y * w + x = y' * w + x' := by omega
  have hw : 0 < w := Nat.zero_lt_of_lt hx
  have hrow : y = y' := by
    have hdiv := congrArg (· / w) hpixel
    simp only [Nat.mul_comm _ w, Nat.mul_add_div hw, Nat.div_eq_of_lt hx, Nat.div_eq_of_lt hx',
      Nat.add_zero] at hdiv
    exact hdiv
  subst hrow
  constructor
  · omega
  · omega

/-- The values before the index `k` are written. -/
structure Filled (w h : UInt32) (px : Fin 3 → Nat → Nat → UInt8) (k : Nat) (out : List UInt8) :
    Prop where
  image : IsImage out w h
  values : ∀ x y (c : Fin 3), x < w.toNat → (y * w.toNat + x) * 3 + c < k →
    out[(y * w.toNat + x) * 3 + c]? = some (px c x y)

variable {w h : UInt32} {px : Fin 3 → Nat → Nat → UInt8} {out : List UInt8}

/-- One round of the innermost loop. -/
theorem Filled.step {dx dy ch : Nat} (hch : ch < 3)
    (hout : Filled w h px ((dy * w.toNat + dx) * 3 + ch) out) (hx : dx < w.toNat)
    (hy : dy < h.toNat) :
    ∃ out', writeAt out ((UInt32.ofNat dy * w + UInt32.ofNat dx) * 3 + UInt32.ofNat ch).toNat
        (px ⟨ch, hch⟩ dx dy) = some out' ∧
      Filled w h px ((dy * w.toNat + dx) * 3 + (ch + 1)) out' := by
  have hexact {n m : Nat} (hlt : n < m) (hm : m ≤ 2 ^ 32) : (UInt32.ofNat n).toNat = n := by
    rw [UInt32.toNat_ofNat']
    omega
  have hdx := hexact hx w.toNat_lt.le
  have hdy := hexact hy h.toNat_lt.le
  have hc := hexact hch (by omega)
  rcases hout.image.index (hdx ▸ hx) (hdy ▸ hy) (hc ▸ hch) with ⟨hindex, hlt⟩
  rw [hdx, hdy, hc] at hindex hlt
  rw [hindex]
  refine ⟨_, if_pos hlt, ?_, ?_⟩
  · rcases hout.image with ⟨hwidth, hheight, hlength, hsmall⟩
    constructor
    · exact hwidth
    · exact hheight
    · rw [List.length_set]
      exact hlength
    · rw [List.length_set]
      exact hsmall
  · intro x y c hx' hbefore
    by_cases hsame : (y * w.toNat + x) * 3 + c = (dy * w.toNat + dx) * 3 + ch
    · rcases index_inj hx' hx c.isLt hch hsame with ⟨rfl, rfl, hch'⟩
      rw [hsame, List.getElem?_set_self hlt, show c = ⟨ch, hch⟩ from Fin.ext hch']
    · rw [List.getElem?_set_ne (Ne.symm hsame)]
      exact hout.values x y c hx' (by omega)

/-- The three loops write every value, where it can be had. -/
theorem loops_fill {sample : Nat → Nat → Nat → Option UInt8}
    (hpx : ∀ dx dy, dx < w.toNat → dy < h.toNat → ∀ c : Fin 3,
      sample dx dy c = some (px c dx dy))
    (himage : IsImage out w h) :
    ∃ out', forRange h.toNat (fun out dy => forRange w.toNat (fun out dx =>
        forRange 3 (fun out ch => do
          let value ← sample dx dy ch
          writeAt out ((UInt32.ofNat dy * w + UInt32.ofNat dx) * 3 + UInt32.ofNat ch).toNat value)
          out) out) out = some out' ∧
      Filled w h px (h.toNat * w.toNat * 3) out' := by
  apply forRange_invariant fun dy out => Filled w h px (dy * w.toNat * 3) out
  · intro dy hy out hout
    rw [Nat.succ_mul]
    refine forRange_invariant (fun dx out => Filled w h px ((dy * w.toNat + dx) * 3) out) ?_ hout
    intro dx hx out hout
    have hnext : (dy * w.toNat + (dx + 1)) * 3 = (dy * w.toNat + dx) * 3 + 3 := by ring
    rw [hnext]
    refine forRange_invariant
      (fun ch out => Filled w h px ((dy * w.toNat + dx) * 3 + ch) out) ?_ hout
    intro ch hch out hout
    rcases hout.step hch hx hy with ⟨out', hwrite, hfilled⟩
    refine ⟨out', ?_, hfilled⟩
    rw [show sample dx dy ch = _ from hpx dx dy hx hy ⟨ch, hch⟩]
    exact hwrite
  · constructor
    · exact himage
    · intro x y c _ hlt
      omega

/-- The buffer that is written to, before it is. -/
theorem isImage_zero (hw : 1 ≤ w.toNat) (hh : 1 ≤ h.toNat)
    (hsmall : w.toNat * h.toNat * 3 < 2 ^ 32) :
    IsImage (List.replicate (w * h * 3).toNat 0) w h := by
  have harea : (w * h).toNat = w.toNat * h.toNat := by
    rw [UInt32.toNat_mul, Nat.mod_eq_of_lt]
    omega
  have hbytes : (w * h * 3).toNat = w.toNat * h.toNat * 3 := by
    rw [UInt32.toNat_mul, harea, show (3 : UInt32).toNat = 3 from rfl, Nat.mod_eq_of_lt hsmall]
  constructor
  · exact hw
  · exact hh
  · rw [List.length_replicate, hbytes]
  · rw [List.length_replicate, hbytes]
    exact hsmall

/-- What is in range of a channel that has one value has that value. -/
theorem InRange.eq_of_uniform {src : List UInt8} {w h : Nat} {c : Fin 3} {k v : UInt8}
    (hv : InRange src w h c v.toNat)
    (huniform : ∀ i < w, ∀ j < h, pixelAt src w c i j = k.toNat) : v = k := by
  rcases hv with ⟨⟨i, hi, j, hj, hlow⟩, i', hi', j', hj', hhigh⟩
  rw [huniform i hi j hj] at hlow
  rw [huniform i' hi' j' hj'] at hhigh
  apply UInt8.toNat_inj.mp
  omega

/-- **Resizing.** Every index is one of its buffer, so the image is returned, of the size that
was asked for; each value lies between two of its channel, and a channel that has one value
keeps it. -/
theorem resize_inRange (K : Type) [Field K] [LinearOrder K] [IsStrictOrderedRing K] [FloorRing K]
    (src : List UInt8) (srcW srcH dstW dstH : UInt32) (himage : IsImage src srcW srcH)
    (hw : 1 ≤ dstW.toNat) (hh : 1 ≤ dstH.toNat) (hsmall : dstW.toNat * dstH.toNat * 3 < 2 ^ 32) :
    ∃ out, resizeBilinearRgb K src srcW srcH dstW dstH = some out ∧
      out.length = dstW.toNat * dstH.toNat * 3 ∧
      ∀ x y, x < dstW.toNat → y < dstH.toNat → ∀ c : Fin 3,
        ∃ v, out[(y * dstW.toNat + x) * 3 + c]? = some v ∧
          InRange src srcW.toNat srcH.toNat c v.toNat ∧
          ∀ k : UInt8, (∀ i < srcW.toNat, ∀ j < srcH.toNat,
            pixelAt src srcW.toNat c i j = k.toNat) → v = k := by
  have hsample : ∀ dx dy, dx < dstW.toNat → dy < dstH.toNat → ∀ c : Fin 3,
      resizedChannel K src srcW srcH dstW dstH dx dy c =
        some (resizedAt K src srcW srcH dstW dstH c dx dy) := by
    intro dx dy hx hy c
    have hc : (UInt32.ofNat c).toNat = c := by
      rw [UInt32.toNat_ofNat']
      omega
    exact sampleChannel_clamped himage (sourceAt_clamped himage.width hx)
      (sourceAt_clamped himage.height hy) hc
  rcases loops_fill hsample (isImage_zero hw hh hsmall) with ⟨out, hrun, hout⟩
  refine ⟨out, hrun, hout.image.length, ?_⟩
  intro x y hx hy c
  have hlast : (y * dstW.toNat + x) * 3 + c < dstH.toNat * dstW.toNat * 3 := by
    have hrow : (y + 1) * dstW.toNat ≤ dstH.toNat * dstW.toNat := Nat.mul_le_mul_right _ hy
    have hc := c.isLt
    rw [Nat.succ_mul] at hrow
    omega
  have hrange : InRange src srcW.toNat srcH.toNat c
      (resizedAt K src srcW srcH dstW dstH c x y).toNat :=
    resizedAt_inRange himage.width himage.height dstW dstH c x y
  exact ⟨_, hout.values x y c hx hlast, hrange, fun k huniform => hrange.eq_of_uniform huniform⟩

/-- One pixel, enlarged to two by one. -/
theorem resize_inRange_sample :
    ∃ out, resizeBilinearRgb Rat [7, 8, 9] 1 1 2 1 = some out ∧ out.length = 2 * 1 * 3 := by
  rcases resize_inRange Rat [7, 8, 9] 1 1 2 1 ⟨by decide, by decide, by decide, by decide⟩
    (by decide) (by decide) (by decide) with ⟨out, hrun, hlength, -⟩
  exact ⟨out, hrun, hlength⟩

end AnatoliaBis.Biometric

import AnatoliaBis.Biometric.FaceDetector
import AnatoliaBis.Biometric.Quality
import AnatoliaBis.Biometric.TopMatches
import Mathlib.Analysis.SpecialFunctions.Exp

/-! # From an upload to an embedding

`image_validation` and `OnnxBiometricProvider::process_image`, in exact arithmetic around the
`image` crate and the two networks. What passes validation is an image that the whole pipeline
can handle: no index leaves its buffer, whatever the networks return in their shapes.
-/

namespace AnatoliaBis.Biometric

open Loops
open App (BiometricError ImageError)

/-! ## Uploads -/

/-- What is used of the `image` crate: pictures of a type `P`, orientations of a type `O`. -/
structure Codec (P O : Type) where
  /-- `into_decoder` and `DynamicImage::from_decoder`, with the orientation of the file. -/
  decode : List UInt8 → Option (P × O)
  applyOrientation : O → P → P
  width : P → UInt32
  height : P → UInt32
  /-- `write_to` as PNG. -/
  writePng : P → Option (List UInt8)
  /-- `to_rgb8` and `into_raw`. -/
  toRgb8 : P → List UInt8

/-- What the code relies on: three bytes a pixel, and a PNG file of a picture has its size. -/
structure Codec.Lawful {P O : Type} (codec : Codec P O) : Prop where
  rgb : ∀ p, (codec.toRgb8 p).length = (codec.width p).toNat * (codec.height p).toNat * 3
  png : ∀ p bytes q o, codec.writePng p = some bytes → codec.decode bytes = some (q, o) →
    codec.width q = codec.width p ∧ codec.height q = codec.height p

/-- `MAX_IMAGE_BYTES`. -/
def maxImageBytes : Nat := 10 * 1024 * 1024

/-- `MIN_DIMENSION`. -/
def minDimension : Nat := 32

/-- `MAX_DIMENSION`. -/
def maxDimension : Nat := 8000

/-- `MAX_PIXELS`. -/
def maxPixels : Nat := 40000000

/-- `sniff_format`. -/
def sniffFormat (bytes : List UInt8) : Option String :=
  if [0xFF, 0xD8, 0xFF].isPrefixOf bytes then some "jpeg"
  else if [0x89, 0x50, 0x4E, 0x47, 0x0D, 0x0A, 0x1A, 0x0A].isPrefixOf bytes then some "png"
  else if 12 ≤ bytes.length ∧ bytes.take 4 = [0x52, 0x49, 0x46, 0x46] ∧
      (bytes.drop 8).take 4 = [0x57, 0x45, 0x42, 0x50] then some "webp"
  else none

/-- `validate_and_sanitize_probe_image`. -/
def validateAndSanitizeProbeImage {P O : Type} (codec : Codec P O) (bytes : List UInt8) :
    Except ImageError (List UInt8) :=
  if maxImageBytes < bytes.length then .error .tooLarge
  else if (sniffFormat bytes).isNone then .error .unsupportedType
  else
    match codec.decode bytes with
    | none => .error .decodeFailed
    | some (picture, orientation) =>
        let decoded := codec.applyOrientation orientation picture
        let width := (codec.width decoded).toNat
        let height := (codec.height decoded).toNat
        if width < minDimension ∨ height < minDimension ∨ maxDimension < width ∨
            maxDimension < height then .error .dimensionsInvalid
        else if maxPixels < width * height then .error .dimensionsInvalid
        else
          match codec.writePng decoded with
          | none => .error .decodeFailed
          | some sanitized => .ok sanitized

/-! ## Embeddings -/

section Embedding

variable {K : Type} [Field K] [LinearOrder K]

/-- `session.run` of the embedding model, and the slice that is taken from its output. -/
abbrev EmbeddingModel (K : Type) := List K → Except String (List K)

/-- `embedding::l2_normalize`. -/
def l2Normalize (sqrt : K → K) (v : List K) : List K :=
  if negligible < norm sqrt v then v.map fun x => x / norm sqrt v else v

/-- `EmbeddingProvider::embed`: planes in the order red, green, blue. -/
def embed (sqrt : K → K) (model : EmbeddingModel K) (alignedRgb : List UInt8) :
    Option (Except String (List K)) := do
  let input ← planes alignedSize id alignedRgb
  match model input with
  | .error err => return .error err
  | .ok raw => return .ok (l2Normalize sqrt raw)

end Embedding

noncomputable section

/-- `MIN_SEARCH_CONFIDENCE`. -/
def minSearchConfidence : ℝ := 0.92

/-- `MIN_ENROLLMENT_CONFIDENCE`. -/
def minEnrollmentConfidence : ℝ := 0.9

/-- `alignment::align_face`. -/
def alignFace (src : List UInt8) (srcW srcH : UInt32) (landmarks : Fin 5 → ℝ × ℝ) :
    Option (List UInt8) :=
  warpToAligned src srcW srcH (similarityTransform landmarks referenceLandmarks)

/-- The two models of `OnnxBiometricProvider`. -/
structure Models where
  detector : Session ℝ
  embedder : EmbeddingModel ℝ

/-- `process_image` from the alignment on. -/
def processFace (models : Models) (rgb : List UInt8) (width height : UInt32) (face : FaceBox ℝ) :
    Option (Except BiometricError (List ℝ × ℝ)) := do
  let aligned ← alignFace rgb width height face.landmarks
  match ← checkBlurAndLighting (K := ℝ) aligned (UInt32.ofNat alignedSize) with
  | .error err => return .error err
  | .ok _ =>
      match ← embed Real.sqrt models.embedder aligned with
      | .error _ => return .error .internal
      | .ok embedding => return .ok (embedding, face.score)

/-- `OnnxBiometricProvider::process_image`. -/
def processImage (models : Models) (rgb : List UInt8) (width height : UInt32)
    (minConfidence : ℝ) : Option (Except BiometricError (List ℝ × ℝ)) := do
  match ← detect Real.sqrt Real.exp models.detector rgb width height with
  | .error _ => return .error .internal
  | .ok [] => return .error .noFaceDetected
  | .ok (_ :: _ :: _) => return .error .multipleFacesDetected
  | .ok [face] =>
      let gates : Except BiometricError Unit := do
        checkDetectionConfidence face minConfidence
        checkFaceSize face width height
        checkPose face
      match gates with
      | .error err => return .error err
      | .ok _ => processFace models rgb width height face

/-- `biometric::EnrollmentResult`. -/
structure EnrollmentResult where
  embedding : List ℝ
  qualityScore : ℝ
  modelName : String
  modelVersion : String

/-- `MODEL_NAME` and `MODEL_VERSION`. -/
def modelName : String := "sface"

def modelVersion : String := "2021dec"

/-- The decoding that `search` and `enroll` have in common; the orientation of the file is not
applied. -/
def processUpload {P O : Type} (codec : Codec P O) (models : Models) (bytes : List UInt8)
    (minConfidence : ℝ) : Option (Except BiometricError (List ℝ × ℝ)) :=
  match codec.decode bytes with
  | none => some (.error .internal)
  | some (decoded, _) =>
      processImage models (codec.toRgb8 decoded) (codec.width decoded) (codec.height decoded)
        minConfidence

/-- `OnnxBiometricProvider::enroll`. -/
def enroll {P O : Type} (codec : Codec P O) (models : Models) (imageBytes : List UInt8) :
    Option (Except BiometricError EnrollmentResult) := do
  match ← processUpload codec models imageBytes minEnrollmentConfidence with
  | .error err => return .error err
  | .ok (embedding, confidence) =>
      return .ok ⟨embedding, confidence, modelName, modelVersion⟩

end

/-! ## What passes validation -/

section Validation

variable {P O : Type} {codec : Codec P O} {bytes sanitized : List UInt8}

theorem validated (h : validateAndSanitizeProbeImage codec bytes = .ok sanitized) :
    ∃ p, codec.writePng p = some sanitized ∧ minDimension ≤ (codec.width p).toNat ∧
      minDimension ≤ (codec.height p).toNat ∧
      (codec.width p).toNat * (codec.height p).toNat ≤ maxPixels := by
  unfold validateAndSanitizeProbeImage at h
  split_ifs at h
  split at h
  · cases h
  next picture orientation _ =>
    dsimp only at h
    split_ifs at h with hdimensions hpixels
    split at h
    · cases h
    next bytes' hwrite =>
      have hsame : bytes' = sanitized := Except.ok.inj h
      rw [hsame] at hwrite
      simp only [not_or, not_lt] at hdimensions
      exact ⟨_, hwrite, hdimensions.1, hdimensions.2.1, not_lt.mp hpixels⟩

/-- The pixels of a sanitized file are an image of the sizes that the pipeline indexes by. -/
theorem isImage_of_validated (hlaw : codec.Lawful)
    (h : validateAndSanitizeProbeImage codec bytes = .ok sanitized) {p : P} {o : O}
    (hdecode : codec.decode sanitized = some (p, o)) :
    IsImage (codec.toRgb8 p) (codec.width p) (codec.height p) := by
  rcases validated h with ⟨q, hwrite, hwidth, hheight, hpixels⟩
  rcases hlaw.png q sanitized p o hwrite hdecode with ⟨hw, hh⟩
  have hlength := hlaw.rgb p
  unfold minDimension at hwidth hheight
  unfold maxPixels at hpixels
  rw [← hw, ← hh] at hpixels
  constructor
  · rw [hw]
    omega
  · rw [hh]
    omega
  · exact hlength
  · rw [hlength]
    omega

end Validation

/-! ## Every step returns -/

theorem length_toGrayscale {K : Type} [Field K] {size : Nat} {rgb : List UInt8}
    (hlength : rgb.length = size * 3) : (toGrayscale rgb : List K).length = size := by
  induction size generalizing rgb with
  | zero =>
      rw [Nat.zero_mul, List.length_eq_zero_iff] at hlength
      rw [hlength]
      rfl
  | succ size ih =>
      rcases rgb with _ | ⟨r, _ | ⟨g, _ | ⟨b, rest⟩⟩⟩
      · rw [List.length_nil] at hlength
        omega
      · rw [List.length_singleton] at hlength
        omega
      · rw [List.length_cons, List.length_singleton] at hlength
        omega
      · have hrest : rest.length = size * 3 := by
          simp only [List.length_cons] at hlength
          omega
        unfold toGrayscale
        rw [List.length_cons, ih hrest]

section Steps

variable {K : Type} [Field K] [LinearOrder K]

/-- The mean of the shades of a crop. -/
def brightnessOf (rgb : List UInt8) : K :=
  (toGrayscale rgb : List K).sum / (toGrayscale rgb : List K).length

/-- A crop passes where it is lit and sharp. -/
structure Clear (rgb : List UInt8) (size : UInt32) : Prop where
  lit : (minMeanBrightness : K) ≤ brightnessOf rgb ∧ brightnessOf rgb ≤ (maxMeanBrightness : K)
  sharp : ∃ variance : K, laplacianVariance (toGrayscale rgb) size size = some variance ∧
    minLaplacianVariance ≤ variance

theorem checkBlurAndLighting_eq {rgb : List UInt8} {size : UInt32} (hsize : 1 ≤ size.toNat)
    (hlength : rgb.length = size.toNat * size.toNat * 3) :
    ∃ result, checkBlurAndLighting (K := K) rgb size = some result ∧
      (result = .ok () ↔ Clear (K := K) rgb size) := by
  have hcrop : IsCrop (toGrayscale rgb : List K) size size :=
    ⟨hsize, hsize, length_toGrayscale hlength⟩
  have hvariance := laplacianVariance_eq hcrop
  have hmean : (toGrayscale rgb : List K).sum / (toGrayscale rgb : List K).length =
      brightnessOf rgb := rfl
  unfold checkBlurAndLighting
  dsimp only
  rw [hmean]
  by_cases hlit : (minMeanBrightness : K) ≤ brightnessOf rgb ∧
      brightnessOf rgb ≤ (maxMeanBrightness : K)
  · rw [if_neg (not_not.mpr hlit), hvariance, Option.bind_eq_bind, Option.bind_some]
    split_ifs with hblurry
    · refine ⟨_, rfl, ?_⟩
      constructor
      · intro h
        cases h
      · intro h
        rcases h.sharp with ⟨variance, hsome, hsharp⟩
        rw [hvariance] at hsome
        rw [Option.some.inj hsome] at hblurry
        exact absurd hsharp hblurry.not_ge
    · refine ⟨_, rfl, ?_⟩
      constructor
      · intro _
        exact ⟨hlit, _, hvariance, not_lt.mp hblurry⟩
      · intro _
        rfl
  · rw [if_pos hlit]
    refine ⟨_, rfl, ?_⟩
    constructor
    · intro h
      cases h
    · intro h
      exact absurd h.lit hlit

theorem embed_eq (sqrt : K → K) (model : EmbeddingModel K) {alignedRgb : List UInt8}
    (hlength : alignedRgb.length = alignedSize * alignedSize * 3) :
    ∃ result, embed sqrt model alignedRgb = some result ∧
      ∀ embedding, result = .ok embedding → ∃ raw, embedding = l2Normalize sqrt raw := by
  rcases planes_eq K id hlength with ⟨input, hplanes, -⟩
  unfold embed
  rw [hplanes, Option.bind_eq_bind, Option.bind_some]
  cases hrun : model input with
  | error err =>
      refine ⟨_, rfl, ?_⟩
      intro embedding h
      cases h
  | ok raw =>
      refine ⟨_, rfl, ?_⟩
      intro embedding h
      exact ⟨raw, (Except.ok.inj h).symm⟩

variable [IsStrictOrderedRing K]

theorem warpToAligned_eq [FloorRing K] {src : List UInt8} {w h : UInt32} (himage : IsImage src w h)
    (T : AffineTransform K) :
    ∃ out, warpToAligned src w h T = some out ∧
      out.length = alignedSize * alignedSize * 3 := by
  unfold warpToAligned
  dsimp only
  split_ifs
  · exact ⟨_, rfl, List.length_replicate⟩
  · have hsample := fun dx dy : Nat => sampleBilinear_eq himage
      (T.inverse.apply ((dx : K), (dy : K))).1 (T.inverse.apply ((dx : K), (dy : K))).2
    choose px hpx _ using hsample
    rcases loops_write hpx List.length_replicate with ⟨out, hrun, hout⟩
    exact ⟨out, hrun, hout.length⟩

/-- The gates on the face. -/
theorem checkFaceSize_eq_ok_iff {face : FaceBox K} {w h : UInt32} (hw : 1 ≤ w.toNat)
    (hh : 1 ≤ h.toNat) : checkFaceSize face w h = .ok () ↔
      minFaceSizeRatio * ((min w h).toNat : K) ≤ face.height := by
  have hmin : 1 ≤ (min w h).toNat := by
    by_cases hle : w ≤ h
    · rw [show min w h = w from if_pos hle]
      exact hw
    · rw [show min w h = h from if_neg hle]
      exact hh
  have hpos : (0 : K) < (min w h).toNat := by exact_mod_cast hmin
  unfold checkFaceSize
  dsimp only
  rw [← le_div_iff₀ hpos]
  split_ifs with hsmall
  · constructor
    · intro h
      cases h
    · intro hle
      rcases hsmall with hzero | hlt
      · exact absurd hpos hzero.not_gt
      · exact absurd hle hlt.not_ge
  · rw [not_or, not_lt] at hsmall
    exact ⟨fun _ => hsmall.2, fun _ => rfl⟩

theorem checkPose_eq_ok_iff {face : FaceBox K} :
    checkPose face = .ok () ↔
      0 < max |(face.landmarks 2).1 - (face.landmarks 0).1|
        |(face.landmarks 1).1 - (face.landmarks 2).1| ∧
      minEyeSymmetryRatio * max |(face.landmarks 2).1 - (face.landmarks 0).1|
        |(face.landmarks 1).1 - (face.landmarks 2).1| ≤
      min |(face.landmarks 2).1 - (face.landmarks 0).1|
        |(face.landmarks 1).1 - (face.landmarks 2).1| := by
  have hshorter : ∀ x y : K, (if x < y then x else y) = min x y := by
    intro x y
    rcases lt_or_ge x y with hlt | hle
    · rw [if_pos hlt, min_eq_left hlt.le]
    · rw [if_neg hle.not_gt, min_eq_right hle]
  have hlonger : ∀ x y : K, (if x < y then y else x) = max x y := by
    intro x y
    rcases lt_or_ge x y with hlt | hle
    · rw [if_pos hlt, max_eq_right hlt.le]
    · rw [if_neg hle.not_gt, max_eq_left hle]
  unfold checkPose
  dsimp only
  rw [hshorter, hlonger]
  split_ifs with hflat hturned
  · constructor
    · intro h
      cases h
    · intro h
      exact absurd h.1 hflat.not_gt
  · have hpos := not_le.mp hflat
    constructor
    · intro h
      cases h
    · intro h
      exact absurd ((le_div_iff₀ hpos).mpr h.2) hturned.not_ge
  · have hpos := not_le.mp hflat
    exact ⟨fun _ => ⟨hpos, (le_div_iff₀ hpos).mp (not_lt.mp hturned)⟩, fun _ => rfl⟩

end Steps

/-! ## What is accepted -/

section Accepted

variable {models : Models} {rgb : List UInt8} {w h : UInt32} {minConfidence : ℝ}

/-- A normalized vector has norm one, unless it is as good as zero. -/
theorem norm_l2Normalize {v : List ℝ} (hv : negligible < norm Real.sqrt v) :
    norm Real.sqrt (l2Normalize Real.sqrt v) = 1 := by
  have hpos : 0 < norm Real.sqrt v := by
    have hnegligible : (0 : ℝ) < negligible := by
      unfold negligible
      positivity
    exact hnegligible.trans hv
  have hnonneg : ∀ l : List ℝ, 0 ≤ (l.map (· ^ 2)).sum := by
    intro l
    apply List.sum_nonneg
    intro x hx
    rcases List.mem_map.mp hx with ⟨y, -, rfl⟩
    exact sq_nonneg y
  have hsquares : ((v.map fun x => x / norm Real.sqrt v).map (· ^ 2)).sum =
      (v.map (· ^ 2)).sum / norm Real.sqrt v ^ 2 := by
    rw [List.map_map, div_eq_mul_inv, ← List.sum_map_mul_right]
    congr 1
    apply List.map_congr_left
    intro x _
    simp only [Function.comp_apply]
    rw [div_pow, div_eq_mul_inv]
  have hroot : norm Real.sqrt v ^ 2 = (v.map (· ^ 2)).sum := Real.sq_sqrt (hnonneg v)
  unfold l2Normalize
  rw [if_pos hv]
  show √((v.map fun x => x / norm Real.sqrt v).map (· ^ 2)).sum = 1
  rw [hsquares, ← hroot, div_self (pow_ne_zero 2 hpos.ne'), Real.sqrt_one]

theorem norm_l2Normalize_or (v : List ℝ) :
    norm Real.sqrt (l2Normalize Real.sqrt v) = 1 ∨
      norm Real.sqrt (l2Normalize Real.sqrt v) ≤ negligible := by
  by_cases hv : negligible < norm Real.sqrt v
  · exact Or.inl (norm_l2Normalize hv)
  · right
    unfold l2Normalize
    rw [if_neg hv]
    exact not_lt.mp hv

/-- A score is the root of a product of two numbers between zero and one. -/
theorem score_le_one (exp : ℝ → ℝ) (outputs : Nat → Except String (StrideOutput ℝ))
    (cell : Cell) : (facesOf Real.sqrt exp outputs w h cell).score ≤ 1 := by
  have hclamp : ∀ x : ℝ, 0 ≤ clampUnit x ∧ clampUnit x ≤ 1 := by
    intro x
    unfold clampUnit
    exact ⟨le_min (le_max_right _ _) zero_le_one, min_le_right _ _⟩
  show √(clampUnit _ * clampUnit _) ≤ 1
  have hproduct : ∀ x y : ℝ, clampUnit x * clampUnit y ≤ 1 := fun x y =>
    mul_le_one₀ (hclamp x).2 (hclamp y).1 (hclamp y).2
  exact Real.sqrt_le_one.mpr (hproduct _ _)

/-- What an accepted image shows, and what is made of it. -/
structure Accepted (models : Models) (rgb : List UInt8) (w h : UInt32) (minConfidence : ℝ)
    (embedding : List ℝ) (score : ℝ) : Prop where
  confident : minConfidence ≤ score ∧ score ≤ 1
  /-- One face and no other, as the network's answer to the image tells; it is large enough and
  turned to the camera. -/
  face : ∃ input outputs face, IsInput ℝ rgb w h input ∧ models.detector input = .ok outputs ∧
    Detected (facesOf Real.sqrt Real.exp outputs w h) [face] ∧ face.score = score ∧
    checkFaceSize face w h = .ok () ∧ checkPose face = .ok () ∧
    ∃ aligned, alignFace rgb w h face.landmarks = some aligned ∧
      aligned.length = alignedSize * alignedSize * 3 ∧
      Clear (K := ℝ) aligned (UInt32.ofNat alignedSize)
  unit : norm Real.sqrt embedding = 1 ∨ norm Real.sqrt embedding ≤ negligible

theorem checkDetectionConfidence_eq_ok_iff {face : FaceBox ℝ} :
    checkDetectionConfidence face minConfidence = .ok () ↔ minConfidence ≤ face.score := by
  unfold checkDetectionConfidence
  split_ifs with hlow
  · constructor
    · intro h
      cases h
    · intro hle
      exact absurd hle hlow.not_ge
  · exact ⟨fun _ => not_lt.mp hlow, fun _ => rfl⟩

/-- From the alignment on every index is one of its buffer. -/
theorem processFace_eq (himage : IsImage rgb w h) (face : FaceBox ℝ) :
    ∃ result, processFace models rgb w h face = some result ∧
      ∀ embedding score, result = .ok (embedding, score) → score = face.score ∧
        (∃ aligned, alignFace rgb w h face.landmarks = some aligned ∧
          aligned.length = alignedSize * alignedSize * 3 ∧
          Clear (K := ℝ) aligned (UInt32.ofNat alignedSize)) ∧
        (norm Real.sqrt embedding = 1 ∨ norm Real.sqrt embedding ≤ negligible) := by
  rcases warpToAligned_eq himage (similarityTransform face.landmarks referenceLandmarks) with
    ⟨aligned, halign, hlength⟩
  have hcrop : alignFace rgb w h face.landmarks = some aligned := halign
  have hclear := @checkBlurAndLighting_eq ℝ _ _ aligned (UInt32.ofNat alignedSize) (by decide)
    hlength
  rcases hclear with ⟨clear, hcheck, hclear⟩
  rcases embed_eq Real.sqrt models.embedder hlength with ⟨embedded, hembed, hnorm⟩
  unfold processFace
  rw [hcrop]
  dsimp only [Option.bind_eq_bind, Option.bind_some]
  rw [hcheck]
  dsimp only [Option.bind_some]
  cases clear with
  | error err =>
      refine ⟨_, rfl, ?_⟩
      intro embedding score h
      cases h
  | ok _ =>
      dsimp only
      rw [hembed]
      cases embedded with
      | error err =>
          refine ⟨_, rfl, ?_⟩
          intro embedding score h
          cases h
      | ok embedding =>
          refine ⟨_, rfl, ?_⟩
          intro embedding' score h
          have hpair := Prod.mk.inj (Except.ok.inj h)
          rw [← hpair.1, ← hpair.2]
          rcases hnorm embedding rfl with ⟨raw, rfl⟩
          exact ⟨rfl, ⟨aligned, rfl, hlength, hclear.mp rfl⟩, norm_l2Normalize_or raw⟩

/-- The pipeline returns on every image. -/
theorem processImage_eq (himage : IsImage rgb w h) (hshape : models.detector.WellShaped) :
    ∃ result, processImage models rgb w h minConfidence = some result ∧
      ∀ embedding score, result = .ok (embedding, score) →
        Accepted models rgb w h minConfidence embedding score := by
  -- whatever is refused is not accepted
  have hrefused : ∀ err : BiometricError, ∃ result : Except BiometricError (List ℝ × ℝ),
      some (.error err) = some result ∧ ∀ embedding score, result = .ok (embedding, score) →
        Accepted models rgb w h minConfidence embedding score := by
    intro err
    refine ⟨_, rfl, ?_⟩
    intro embedding score h
    cases h
  have hdetected := @detect_eq ℝ _ _ _ Real.sqrt Real.exp models.detector rgb w h _ himage hshape
  rcases hdetected with ⟨input, result, hinput, hdetect, houtcome⟩
  unfold processImage
  rw [hdetect, Option.bind_eq_bind, Option.bind_some]
  cases houtcome with
  | run hrun => exact hrefused _
  | extract hrun hstride hextract => exact hrefused _
  | @faces outputs faces hrun hfaces =>
      rcases faces with _ | ⟨face, _ | ⟨_, _⟩⟩
      · exact hrefused _
      · -- one face, and the gates one after the other
        dsimp only
        cases hconfidence : checkDetectionConfidence face minConfidence with
        | error err => exact hrefused err
        | ok _ =>
            cases hsize : checkFaceSize face w h with
            | error err => exact hrefused err
            | ok _ =>
                cases hpose : checkPose face with
                | error err => exact hrefused err
                | ok _ =>
                    have hrest := @processFace_eq models _ _ _ himage face
                    rcases hrest with ⟨result, hrest, haccepted⟩
                    refine ⟨result, hrest, ?_⟩
                    intro embedding score h
                    rcases haccepted embedding score h with ⟨rfl, hcrop, hunit⟩
                    rcases hfaces.found face List.mem_cons_self with ⟨-, cell, -, hcell⟩
                    constructor
                    · constructor
                      · exact checkDetectionConfidence_eq_ok_iff.mp hconfidence
                      · rw [← hcell]
                        exact score_le_one Real.exp outputs cell
                    · exact ⟨input, outputs, face, hinput, hrun, hfaces, rfl, hsize, hpose, hcrop⟩
                    · exact hunit
      · exact hrefused _

/-- A lower bar accepts as much, with the same embedding. -/
theorem processImage_mono {minConfidence' : ℝ} (hle : minConfidence' ≤ minConfidence)
    {embedding : List ℝ} {score : ℝ}
    (hrun : processImage models rgb w h minConfidence = some (.ok (embedding, score))) :
    processImage models rgb w h minConfidence' = some (.ok (embedding, score)) := by
  unfold processImage at hrun ⊢
  cases hdetect : detect Real.sqrt Real.exp models.detector rgb w h with
  | none =>
      rw [hdetect] at hrun
      cases hrun
  | some result =>
      rw [hdetect] at hrun
      dsimp only [Option.bind_eq_bind, Option.bind_some] at hrun ⊢
      rcases result with err | faces
      · cases Option.some.inj hrun
      · rcases faces with _ | ⟨face, _ | ⟨_, _⟩⟩
        · cases Option.some.inj hrun
        · dsimp only at hrun ⊢
          cases hconfidence : checkDetectionConfidence face minConfidence with
          | error err =>
              rw [hconfidence] at hrun
              cases Option.some.inj hrun
          | ok _ =>
              have hscore := checkDetectionConfidence_eq_ok_iff.mp hconfidence
              rw [hconfidence] at hrun
              rw [checkDetectionConfidence_eq_ok_iff.mpr (hle.trans hscore)]
              exact hrun
        · cases Option.some.inj hrun

end Accepted

/-! ## From the upload on -/

/-- What becomes of a file that validation has returned. -/
structure Processed {P O : Type} (codec : Codec P O) (models : Models)
    (sanitized : List UInt8) : Prop where
  /-- Enrollment returns, and what it accepts is one clear face. -/
  enrolled : ∃ result, enroll codec models sanitized = some result ∧
    ∀ enrollment, result = .ok enrollment → ∃ p o, codec.decode sanitized = some (p, o) ∧
      Accepted models (codec.toRgb8 p) (codec.width p) (codec.height p) minEnrollmentConfidence
        enrollment.embedding enrollment.qualityScore
  /-- So does a search, and what it accepts enrollment accepts, with the same embedding. -/
  searched : ∃ result, processUpload codec models sanitized minSearchConfidence = some result ∧
    ∀ embedding score, result = .ok (embedding, score) →
      enroll codec models sanitized = some (.ok ⟨embedding, score, modelName, modelVersion⟩)

theorem processUpload_eq {P O : Type} {codec : Codec P O} (hlaw : codec.Lawful) {models : Models}
    (hshape : models.detector.WellShaped) {bytes sanitized : List UInt8}
    (hvalid : validateAndSanitizeProbeImage codec bytes = .ok sanitized) (minConfidence : ℝ) :
    ∃ result, processUpload codec models sanitized minConfidence = some result ∧
      ∀ embedding score, result = .ok (embedding, score) →
        ∃ p o, codec.decode sanitized = some (p, o) ∧
          Accepted models (codec.toRgb8 p) (codec.width p) (codec.height p) minConfidence
            embedding score := by
  unfold processUpload
  cases hdecode : codec.decode sanitized with
  | none =>
      refine ⟨_, rfl, ?_⟩
      intro embedding score h
      cases h
  | some picture =>
      rcases picture with ⟨p, o⟩
      have himage := isImage_of_validated hlaw hvalid hdecode
      have hprocessed := @processImage_eq models _ _ _ minConfidence himage hshape
      rcases hprocessed with ⟨result, hrun, haccepted⟩
      refine ⟨result, hrun, ?_⟩
      intro embedding score h
      exact ⟨p, o, rfl, haccepted embedding score h⟩

/-- A PNG file: 32 by 32 pixels, one bit each, all black. -/
def samplePng : List UInt8 :=
  [137, 80, 78, 71, 13, 10, 26, 10, 0, 0, 0, 13, 73, 72, 68, 82, 0, 0, 0, 32, 0, 0, 0, 32, 1, 0, 0,
    0, 0, 91, 1, 71, 89, 0, 0, 0, 12, 73, 68, 65, 84, 120, 218, 99, 96, 24, 220, 0, 0, 0, 160, 0, 1,
    142, 251, 177, 180, 0, 0, 0, 0, 73, 69, 78, 68, 174, 66, 96, 130]

/-- The same picture, eight bits a pixel. -/
def sampleSanitized : List UInt8 :=
  [137, 80, 78, 71, 13, 10, 26, 10, 0, 0, 0, 13, 73, 72, 68, 82, 0, 0, 0, 32, 0, 0, 0, 32, 8, 0, 0,
    0, 0, 86, 17, 37, 40, 0, 0, 0, 18, 73, 68, 65, 84, 120, 218, 99, 96, 24, 5, 163, 96, 20, 140,
    2, 236, 0, 0, 4, 32, 0, 1, 124, 193, 239, 184, 0, 0, 0, 0, 73, 69, 78, 68, 174, 66, 96, 130]

/-- The `image` crate on these two files; `()` is their picture. -/
def sampleCodec : Codec Unit Unit where
  decode bytes := if bytes = samplePng ∨ bytes = sampleSanitized then some ((), ()) else none
  applyOrientation _ p := p
  width _ := 32
  height _ := 32
  writePng _ := some sampleSanitized
  toRgb8 _ := List.replicate (32 * 32 * 3) 0

theorem sampleCodec_lawful : sampleCodec.Lawful := by
  constructor
  · intro p
    have hlength : (sampleCodec.toRgb8 p).length = 32 * 32 * 3 := List.length_replicate
    rw [hlength]
    rfl
  · intro _ _ _ _ _ _
    exact ⟨rfl, rfl⟩

end AnatoliaBis.Biometric

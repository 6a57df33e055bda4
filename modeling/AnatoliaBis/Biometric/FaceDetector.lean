import AnatoliaBis.Biometric.Detection
import AnatoliaBis.Biometric.Resize

/-! # The face detector

`biometric::detection::FaceDetector::detect` in exact arithmetic around the network, which is a
parameter: the tensor it is given, the boxes its outputs stand for, and the faces that are
left. An index outside a buffer is a panic, which is `none` here.
-/

namespace AnatoliaBis.Biometric

open Loops

/-! ## Tensors of images -/

/-- `data[i] = v`. -/
def assignAt {K : Type} (data : List K) (i : Nat) (v : K) : Option (List K) :=
  if i < data.length then some (data.set i v) else none

section Tensors

variable {K : Type} [Field K]

theorem first_lt : 0 < 3 := by decide

theorem second_lt : 1 < 3 := by decide

theorem third_lt : 2 < 3 := by decide

/-- The loops of `build_input_tensor` and of `EmbeddingProvider::embed`: an interleaved RGB
image of `size` by `size` pixels as three planes, the channel `order p` in the plane `p`. -/
def planes (size : Nat) (order : Fin 3 → Fin 3) (rgb : List UInt8) : Option (List K) :=
  forRange size (fun data y =>
    forRange size (fun data x => do
      let px := (y * size + x) * 3
      let r ← rgb[px]?
      let g ← rgb[px + 1]?
      let b ← rgb[px + 2]?
      let data ← assignAt data (y * size + x)
        ((channel (r, g, b) (order ⟨0, first_lt⟩)).toNat : K)
      let data ← assignAt data (size * size + y * size + x)
        ((channel (r, g, b) (order ⟨1, second_lt⟩)).toNat : K)
      assignAt data (2 * size * size + y * size + x)
        ((channel (r, g, b) (order ⟨2, third_lt⟩)).toNat : K))
      data) (List.replicate (3 * size * size) 0)

end Tensors

/-! ## Decoding the outputs -/

/-- `INPUT_SIZE`. -/
def inputSize : Nat := 640

/-- `STRIDES`. -/
def strides : List Nat := [8, 16, 32]

/-- `PRE_NMS_TOP_K`. -/
def preNmsTopK : Nat := 5000

/-- The tensors `cls`, `obj`, `bbox` and `kps` of one stride. -/
structure StrideOutput (K : Type) where
  cls : List K
  obj : List K
  bbox : List K
  kps : List K

/-- `session.run`, and the tensors that are taken from its outputs: both can fail. -/
abbrev Session (K : Type) := List K → Except String (Nat → Except String (StrideOutput K))

section Decoding

variable {K : Type} [Field K] [LinearOrder K] (sqrt exp : K → K)

/-- `SCORE_THRESHOLD`. -/
def scoreThreshold : K := 0.9

/-- `NMS_IOU_THRESHOLD`. -/
def nmsIouThreshold : K := 0.3

/-- `.clamp(0.0, 1.0)`. -/
def clampUnit (x : K) : K := min (max x 0) 1

/-- One round of the loops over the cells of a stride: its box, where the score reaches the
threshold. -/
def decodeCell (stride cols : Nat) (out : StrideOutput K) (r c : Nat) :
    Option (Option (FaceBox K)) := do
  let idx := r * cols + c
  let cls ← out.cls[idx]?
  let obj ← out.obj[idx]?
  let score := sqrt (clampUnit cls * clampUnit obj)
  if score < scoreThreshold then return none
  else
    let dx ← out.bbox[idx * 4]?
    let dy ← out.bbox[idx * 4 + 1]?
    let dw ← out.bbox[idx * 4 + 2]?
    let dh ← out.bbox[idx * 4 + 3]?
    let cx := ((c : K) + dx) * stride
    let cy := ((r : K) + dy) * stride
    let w := exp dw * stride
    let h := exp dh * stride
    let landmarks ← forRange 5 (fun landmarks n => do
      let lx ← out.kps[idx * 10 + 2 * n]?
      let ly ← out.kps[idx * 10 + 2 * n + 1]?
      return fun i : Fin 5 =>
        if i.val = n then ((lx + c) * stride, (ly + r) * stride) else landmarks i)
      fun _ => ((0 : K), (0 : K))
    return some ⟨cx - w / (2 : Nat), cy - h / (2 : Nat), w, h, score, landmarks⟩

/-- The loops over the cells of a stride. -/
def decodeStride (stride : Nat) (out : StrideOutput K) (candidates : List (FaceBox K)) :
    Option (List (FaceBox K)) :=
  let cols := inputSize / stride
  let rows := inputSize / stride
  forRange rows (fun candidates r =>
    forRange cols (fun candidates c => do
      let box ← decodeCell sqrt exp stride cols out r c
      return candidates ++ box.toList) candidates) candidates

/-- The loop over the strides. -/
def decodeStrides (outputs : Nat → Except String (StrideOutput K)) :
    List Nat → List (FaceBox K) → Option (Except String (List (FaceBox K)))
  | [], candidates => some (.ok candidates)
  | stride :: rest, candidates =>
      match outputs stride with
      | .error err => some (.error err)
      | .ok out => do
          let candidates ← decodeStride sqrt exp stride out candidates
          decodeStrides outputs rest candidates

/-- From the model's coordinates to the image's. -/
def FaceBox.rescale (sx sy : K) (b : FaceBox K) : FaceBox K where
  x := b.x * sx
  y := b.y * sy
  width := b.width * sx
  height := b.height * sy
  score := b.score
  landmarks i := ((b.landmarks i).1 * sx, (b.landmarks i).2 * sy)

/-- `sort_by`, `truncate` and `non_max_suppression`. -/
def selectFaces (candidates : List (FaceBox K)) : List (FaceBox K) :=
  nonMaxSuppression ((candidates.mergeSort fun a b => decide (b.score ≤ a.score)).take preNmsTopK)
    nmsIouThreshold

variable [FloorRing K]

/-- `build_input_tensor`: planes in the order blue, green, red. -/
def buildInputTensor (rgb : List UInt8) (width height : UInt32) : Option (List K) := do
  let resized ← resizeBilinearRgb K rgb width height (UInt32.ofNat inputSize)
    (UInt32.ofNat inputSize)
  planes inputSize Fin.rev resized

/-- `FaceDetector::detect`. -/
def detect (session : Session K) (rgb : List UInt8) (width height : UInt32) :
    Option (Except String (List (FaceBox K))) := do
  let input ← buildInputTensor rgb width height
  match session input with
  | .error err => return .error err
  | .ok outputs =>
      match ← decodeStrides sqrt exp outputs strides [] with
      | .error err => return .error err
      | .ok candidates =>
          return .ok ((selectFaces candidates).map
            (FaceBox.rescale (width.toNat / inputSize) (height.toNat / inputSize)))

end Decoding

/-! ## The planes -/

/-- The cells of a square grid, row by row. -/
theorem cell_lt {size x y : Nat} (hx : x < size) (hy : y < size) :
    y * size + x < size * size := by
  calc y * size + x < y * size + size := Nat.add_lt_add_left hx _
    _ = (y + 1) * size := (Nat.succ_mul y size).symm
    _ ≤ size * size := Nat.mul_le_mul_right _ hy

/-- A value is at one index of the tensor, and nothing else is. -/
theorem plane_inj {n i j : Nat} {p q : Fin 3} (hi : i < n) (hj : j < n)
    (h : p * n + i = q * n + j) : p = q ∧ i = j := by
  have hdiv := congrArg (· / n) h
  have hn : 0 < n := Nat.zero_lt_of_lt hi
  simp only [Nat.mul_comm _ n, Nat.mul_add_div hn, Nat.div_eq_of_lt hi, Nat.div_eq_of_lt hj,
    Nat.add_zero] at hdiv
  rw [hdiv] at h
  exact ⟨Fin.ext hdiv, Nat.add_left_cancel h⟩

/-- One value more. -/
theorem assignAt_eq {K : Type} {data : List K} {i : Nat} (hi : i < data.length) (v : K) :
    assignAt data i v = some (data.set i v) := if_pos hi

section Planes

variable {K : Type} [Field K] {size : Nat} {order : Fin 3 → Fin 3} {rgb : List UInt8}

/-- The values of the pixels before `k` are in their planes. -/
structure Plotted (order : Fin 3 → Fin 3) (rgb : List UInt8) (size k : Nat) (data : List K) :
    Prop where
  length : data.length = 3 * size * size
  values : ∀ x y (p : Fin 3), x < size → y < size → y * size + x < k →
    data[p * (size * size) + (y * size + x)]? = some (pixelAt rgb size (order p) x y : K)

/-- One round of the loops. -/
theorem Plotted.step {x y : Nat} {data : List K}
    (h : Plotted order rgb size (y * size + x) data) (hx : x < size) (hy : y < size)
    {r g b : UInt8}
    (hpixel : ∀ c, (channel (r, g, b) c).toNat = pixelAt rgb size c x y) :
    ∃ data', (do
        let data ← assignAt data (y * size + x) ((channel (r, g, b) (order 0)).toNat : K)
        let data ← assignAt data (size * size + y * size + x)
          ((channel (r, g, b) (order 1)).toNat : K)
        assignAt data (2 * size * size + y * size + x)
          ((channel (r, g, b) (order 2)).toNat : K)) = some data' ∧
      Plotted order rgb size (y * size + x + 1) data' := by
  have hcell : y * size + x < size * size := cell_lt hx hy
  have hlength : data.length = 3 * (size * size) := by
    rw [h.length, Nat.mul_assoc]
  have hsecond : size * size + y * size + x = 1 * (size * size) + (y * size + x) := by omega
  have hthird : 2 * size * size + y * size + x = 2 * (size * size) + (y * size + x) := by
    rw [Nat.mul_assoc]
    omega
  rw [hsecond, hthird]
  generalize hn : size * size = n at *
  generalize hk : y * size + x = k at *
  refine ⟨((data.set k ((channel (r, g, b) (order 0)).toNat : K)).set (1 * n + k)
    ((channel (r, g, b) (order 1)).toNat : K)).set (2 * n + k)
    ((channel (r, g, b) (order 2)).toNat : K), ?_, ?_, ?_⟩
  · rw [assignAt_eq (by omega)]
    simp only [Option.bind_eq_bind, Option.bind_some]
    rw [assignAt_eq (by rw [List.length_set]; omega), Option.bind_some,
      assignAt_eq (by rw [List.length_set, List.length_set]; omega)]
  · rw [List.length_set, List.length_set, List.length_set]
    exact h.length
  · intro x' y' p hx' hy' hlt
    have hcell' : y' * size + x' < n := by
      rw [← hn]
      exact cell_lt hx' hy'
    rw [hn]
    by_cases hsame : y' * size + x' = k
    · -- the pixel that is written
      have hxy : x' = x ∧ y' = y := by
        have hw : 0 < size := Nat.zero_lt_of_lt hx
        have hindex : y' * size + x' = y * size + x := hsame.trans hk.symm
        have hdiv := congrArg (· / size) hindex
        simp only [Nat.mul_comm _ size, Nat.mul_add_div hw, Nat.div_eq_of_lt hx,
          Nat.div_eq_of_lt hx', Nat.add_zero] at hdiv
        subst hdiv
        exact ⟨Nat.add_left_cancel hindex, rfl⟩
      rcases hxy with ⟨rfl, rfl⟩
      rw [hsame, ← hpixel]
      fin_cases p
      · rw [List.getElem?_set_ne (by simp; omega), List.getElem?_set_ne (by simp; omega)]
        simp [show k < data.length by omega]
      · rw [List.getElem?_set_ne (by simp; omega)]
        simp [show n + k < data.length by omega]
      · simp [show 2 * n + k < data.length by omega]
    · -- any other pixel
      have hold := h.values x' y' p hx' hy' (by omega)
      rw [hn] at hold
      have hne : ∀ q : Fin 3, (q : Nat) * n + k ≠ p * n + (y' * size + x') := by
        intro q heq
        exact hsame (plane_inj (q := p) hcell hcell' heq).2.symm
      have h0 : k ≠ p * n + (y' * size + x') := by simpa using hne 0
      have h1 : 1 * n + k ≠ p * n + (y' * size + x') := hne 1
      have h2 : 2 * n + k ≠ p * n + (y' * size + x') := hne 2
      rw [List.getElem?_set_ne h2, List.getElem?_set_ne h1, List.getElem?_set_ne h0]
      exact hold

/-- **The planes hold the image**, every value at its index, in the order of the planes. -/
theorem planes_eq (K : Type) [Field K] (order : Fin 3 → Fin 3)
    (hlength : rgb.length = size * size * 3) :
    ∃ data : List K, planes size order rgb = some data ∧
      Plotted order rgb size (size * size) data := by
  unfold planes
  apply forRange_invariant fun y data => Plotted order rgb size (y * size) data
  · intro y hy data hdata
    have hnext : (y + 1) * size = y * size + size := Nat.succ_mul y size
    rw [hnext]
    refine forRange_invariant (fun x data => Plotted order rgb size (y * size + x) data) ?_ hdata
    intro x hx data hdata
    have hcell : y * size + x < size * size := cell_lt hx hy
    have hread : ∀ c < 3, rgb[(y * size + x) * 3 + c]? =
        some (rgb.getD ((y * size + x) * 3 + c) 0) := by
      intro c hc
      have hlt : (y * size + x) * 3 + c < rgb.length := by omega
      rw [List.getD_eq_getElem?_getD, List.getElem?_eq_getElem hlt]
      rfl
    have hpixel : ∀ c, (channel (rgb.getD ((y * size + x) * 3 + 0) 0,
        rgb.getD ((y * size + x) * 3 + 1) 0, rgb.getD ((y * size + x) * 3 + 2) 0) c).toNat =
        pixelAt rgb size c x y := by
      intro c
      fin_cases c <;> rfl
    have hfirst := hread 0 (by omega)
    rw [Nat.add_zero] at hfirst
    dsimp only
    rw [hfirst, hread 1 (by omega), hread 2 (by omega)]
    exact hdata.step hx hy hpixel
  · constructor
    · exact List.length_replicate
    · intro x y p _ _ hlt
      omega

end Planes

/-! ## The cells -/

/-- A cell of the grid of a stride. -/
structure Cell where
  stride : Nat
  row : Nat
  col : Nat

/-- The cells of a stride, in the order of the loops. -/
def cellsOf (stride : Nat) : List Cell :=
  (List.range (inputSize / stride)).flatMap fun r =>
    (List.range (inputSize / stride)).flatMap fun c => [⟨stride, r, c⟩]

/-- All cells. -/
def cells : List Cell := strides.flatMap cellsOf

theorem getElem?_of_lt {K : Type} [Field K] {data : List K} {i : Nat} (hi : i < data.length) :
    data[i]? = some (data.getD i 0) := by
  rw [List.getD_eq_getElem?_getD, List.getElem?_eq_getElem hi]
  rfl

/-- The loop over the landmarks. -/
theorem landmarks_eq {K : Type} [Field K] (kps : List K) (idx : Nat)
    (hidx : idx * 10 + 9 < kps.length) (r c stride : K) :
    forRange 5 (fun landmarks n => do
      let lx ← kps[idx * 10 + 2 * n]?
      let ly ← kps[idx * 10 + 2 * n + 1]?
      return fun i : Fin 5 =>
        if i.val = n then ((lx + c) * stride, (ly + r) * stride) else landmarks i)
      (fun _ => ((0 : K), (0 : K))) =
    some fun i : Fin 5 => ((kps.getD (idx * 10 + 2 * i.val) 0 + c) * stride,
      (kps.getD (idx * 10 + 2 * i.val + 1) 0 + r) * stride) := by
  have hround : ∀ n < 5, ∀ landmarks : Fin 5 → K × K,
      (∀ i : Fin 5, i.val < n → landmarks i = ((kps.getD (idx * 10 + 2 * i.val) 0 + c) * stride,
        (kps.getD (idx * 10 + 2 * i.val + 1) 0 + r) * stride)) →
      ∃ landmarks', (do
        let lx ← kps[idx * 10 + 2 * n]?
        let ly ← kps[idx * 10 + 2 * n + 1]?
        return fun i : Fin 5 =>
          if i.val = n then ((lx + c) * stride, (ly + r) * stride) else landmarks i) =
          some landmarks' ∧
        ∀ i : Fin 5, i.val < n + 1 → landmarks' i =
          ((kps.getD (idx * 10 + 2 * i.val) 0 + c) * stride,
            (kps.getD (idx * 10 + 2 * i.val + 1) 0 + r) * stride) := by
    intro n hn landmarks hbefore
    have hx : idx * 10 + 2 * n < kps.length := by omega
    have hy : idx * 10 + 2 * n + 1 < kps.length := by omega
    rw [getElem?_of_lt hx, getElem?_of_lt hy]
    refine ⟨_, rfl, ?_⟩
    intro i hi
    by_cases hlast : i.val = n
    · rw [if_pos hlast, hlast]
    · rw [if_neg hlast]
      exact hbefore i (by omega)
  rcases forRange_invariant _ hround (fun i hi => absurd hi (Nat.not_lt_zero _)) with
    ⟨landmarks, hrun, hall⟩
  rw [hrun]
  exact congrArg some (funext fun i => hall i i.isLt)

section Decode

variable {K : Type} [Field K] [LinearOrder K] {sqrt exp : K → K}

/-- The box of a cell, whether its score reaches the threshold or not. -/
def faceOf (sqrt exp : K → K) (out : StrideOutput K) (cell : Cell) : FaceBox K :=
  let idx := cell.row * (inputSize / cell.stride) + cell.col
  let w := exp (out.bbox.getD (idx * 4 + 2) 0) * cell.stride
  let h := exp (out.bbox.getD (idx * 4 + 3) 0) * cell.stride
  { x := ((cell.col : K) + out.bbox.getD (idx * 4) 0) * cell.stride - w / (2 : Nat)
    y := ((cell.row : K) + out.bbox.getD (idx * 4 + 1) 0) * cell.stride - h / (2 : Nat)
    width := w
    height := h
    score := sqrt (clampUnit (out.cls.getD idx 0) * clampUnit (out.obj.getD idx 0))
    landmarks := fun i =>
      ((out.kps.getD (idx * 10 + 2 * i.val) 0 + cell.col) * cell.stride,
        (out.kps.getD (idx * 10 + 2 * i.val + 1) 0 + cell.row) * cell.stride) }

/-- The boxes of some cells that reach the threshold. -/
def reaching (sqrt exp : K → K) (out : StrideOutput K) (cells : List Cell) : List (FaceBox K) :=
  (cells.map (faceOf sqrt exp out)).filter fun face => decide (scoreThreshold ≤ face.score)

/-- A stride's tensors have one score of each kind for a cell, four numbers for its box and ten
for its landmarks. -/
structure StrideOutput.Fits (out : StrideOutput K) (count : Nat) : Prop where
  cls : out.cls.length = count
  obj : out.obj.length = count
  bbox : out.bbox.length = count * 4
  kps : out.kps.length = count * 10

/-- Every index of a cell is one of the tensors. -/
theorem decodeCell_eq {out : StrideOutput K} {stride r c : Nat}
    (hfits : out.Fits (inputSize / stride * (inputSize / stride))) (hr : r < inputSize / stride)
    (hc : c < inputSize / stride) :
    (decodeCell sqrt exp stride (inputSize / stride) out r c).map Option.toList =
      some (reaching sqrt exp out [⟨stride, r, c⟩]) := by
  have hidx : r * (inputSize / stride) + c < inputSize / stride * (inputSize / stride) :=
    cell_lt hc hr
  have hcls := hfits.cls
  have hobj := hfits.obj
  have hbbox := hfits.bbox
  have hkps := hfits.kps
  have hlandmarks := landmarks_eq out.kps (r * (inputSize / stride) + c) (by omega) (r : K)
    (c : K) (stride : K)
  unfold decodeCell reaching
  dsimp only
  rw [getElem?_of_lt (by omega), getElem?_of_lt (by omega), hlandmarks]
  simp only [Option.bind_eq_bind, Option.bind_some, List.map_singleton]
  split_ifs with hscore
  · have hout : ¬ (scoreThreshold : K) ≤ (faceOf sqrt exp out ⟨stride, r, c⟩).score :=
      not_le.mpr hscore
    rw [List.filter_singleton]
    simp [hout]
  · have hreach : (scoreThreshold : K) ≤ (faceOf sqrt exp out ⟨stride, r, c⟩).score :=
      not_lt.mp hscore
    rw [getElem?_of_lt (by omega), getElem?_of_lt (by omega), getElem?_of_lt (by omega),
      getElem?_of_lt (by omega)]
    rw [List.filter_singleton]
    simp only [hreach, decide_true, Option.bind_some, Option.pure_def, Option.map_some]
    rfl

theorem reaching_append (out : StrideOutput K) (cs cs' : List Cell) :
    reaching sqrt exp out (cs ++ cs') = reaching sqrt exp out cs ++ reaching sqrt exp out cs' := by
  unfold reaching
  rw [List.map_append, List.filter_append]

theorem reaching_flatMap {α : Type} (out : StrideOutput K) (f : α → List Cell) (l : List α) :
    reaching sqrt exp out (l.flatMap f) = l.flatMap fun a => reaching sqrt exp out (f a) := by
  induction l with
  | nil => rfl
  | cons a l ih => rw [List.flatMap_cons, List.flatMap_cons, reaching_append, ih]

/-- A stride adds the boxes of its cells that reach the threshold. -/
theorem decodeStride_eq {out : StrideOutput K} {stride : Nat}
    (hfits : out.Fits (inputSize / stride * (inputSize / stride)))
    (candidates : List (FaceBox K)) :
    decodeStride sqrt exp stride out candidates =
      some (candidates ++ reaching sqrt exp out (cellsOf stride)) := by
  have hcell : ∀ r < inputSize / stride, ∀ c < inputSize / stride,
      ∀ candidates : List (FaceBox K), (do
        let box ← decodeCell sqrt exp stride (inputSize / stride) out r c
        return candidates ++ box.toList) =
      some (candidates ++ reaching sqrt exp out [⟨stride, r, c⟩]) := by
    intro r hr c hc candidates
    have hdecode : (decodeCell sqrt exp stride (inputSize / stride) out r c).map Option.toList =
        some (reaching sqrt exp out [⟨stride, r, c⟩]) := decodeCell_eq hfits hr hc
    rcases Option.map_eq_some_iff.mp hdecode with ⟨box, hbox, hlist⟩
    rw [hbox, ← hlist]
    rfl
  have hrow : ∀ r < inputSize / stride, ∀ candidates : List (FaceBox K),
      forRange (inputSize / stride) (fun candidates c => do
        let box ← decodeCell sqrt exp stride (inputSize / stride) out r c
        return candidates ++ box.toList) candidates =
      some (candidates ++ (List.range (inputSize / stride)).flatMap fun c =>
        reaching sqrt exp out [⟨stride, r, c⟩]) :=
    fun r hr candidates => forRange_collect _ (hcell r hr) candidates
  unfold decodeStride cellsOf
  rw [reaching_flatMap]
  simp only [reaching_flatMap]
  exact forRange_collect _ hrow candidates

/-- The tensors of a stride, where they can be had. -/
def tensorsOf (outputs : Nat → Except String (StrideOutput K)) (stride : Nat) : StrideOutput K :=
  match outputs stride with
  | .ok out => out
  | .error _ => ⟨[], [], [], []⟩

/-- The strides add theirs one after the other, unless the tensors of one cannot be had. -/
theorem decodeStrides_eq {outputs : Nat → Except String (StrideOutput K)} {l : List Nat}
    (hfits : ∀ stride ∈ l, ∀ out, outputs stride = .ok out →
      out.Fits (inputSize / stride * (inputSize / stride))) (candidates : List (FaceBox K)) :
    (∃ err, decodeStrides sqrt exp outputs l candidates = some (.error err) ∧
        ∃ stride ∈ l, outputs stride = .error err) ∨
      decodeStrides sqrt exp outputs l candidates = some (.ok (candidates ++
        l.flatMap fun stride => reaching sqrt exp (tensorsOf outputs stride) (cellsOf stride))) := by
  induction l generalizing candidates with
  | nil =>
      right
      unfold decodeStrides
      rw [List.flatMap_nil, List.append_nil]
  | cons stride rest ih =>
      have hrest := ih (fun stride hstride => hfits stride (List.mem_cons_of_mem _ hstride))
      unfold decodeStrides
      cases hout : outputs stride with
      | error err => exact Or.inl ⟨err, rfl, stride, List.mem_cons_self, hout⟩
      | ok out =>
          have hstride : decodeStride sqrt exp stride out candidates =
              some (candidates ++ reaching sqrt exp out (cellsOf stride)) :=
            decodeStride_eq (hfits stride List.mem_cons_self out hout) candidates
          have htensors : tensorsOf outputs stride = out := by
            unfold tensorsOf
            rw [hout]
          dsimp only
          rw [hstride, List.flatMap_cons, htensors, ← List.append_assoc]
          rcases hrest (candidates ++ reaching sqrt exp out (cellsOf stride)) with
            ⟨err, hrun, stride', hstride', herr⟩ | hrun
          · exact Or.inl ⟨err, hrun, stride', List.mem_cons_of_mem _ hstride', herr⟩
          · exact Or.inr hrun

/-- The face that a cell stands for, in the model's coordinates. -/
def faceAt (sqrt exp : K → K) (outputs : Nat → Except String (StrideOutput K)) (cell : Cell) :
    FaceBox K :=
  faceOf sqrt exp (tensorsOf outputs cell.stride) cell

/-- The boxes of the cells that reach the threshold. -/
def candidatesOf (face : Cell → FaceBox K) : List (FaceBox K) :=
  (cells.map face).filter fun f => decide (scoreThreshold ≤ f.score)

theorem candidates_eq (outputs : Nat → Except String (StrideOutput K)) :
    (strides.flatMap fun stride =>
        reaching sqrt exp (tensorsOf outputs stride) (cellsOf stride)) =
      candidatesOf (faceAt sqrt exp outputs) := by
  have hstride : ∀ stride, reaching sqrt exp (tensorsOf outputs stride) (cellsOf stride) =
      ((cellsOf stride).map (faceAt sqrt exp outputs)).filter fun face =>
        decide (scoreThreshold ≤ face.score) := by
    intro stride
    have hsame : (cellsOf stride).map (faceOf sqrt exp (tensorsOf outputs stride)) =
        (cellsOf stride).map (faceAt sqrt exp outputs) := by
      apply List.map_congr_left
      intro cell hcell
      have hcellStride : cell.stride = stride := by
        unfold cellsOf at hcell
        rcases List.mem_flatMap.mp hcell with ⟨r, -, hcell⟩
        rcases List.mem_flatMap.mp hcell with ⟨c, -, hcell⟩
        rw [List.mem_singleton.mp hcell]
      unfold faceAt
      rw [hcellStride]
    unfold reaching
    rw [hsame]
  unfold candidatesOf cells
  simp only [hstride]
  rw [List.map_flatMap, List.filter_flatMap]

end Decode

/-! ## The faces that are left -/

section Ranking

variable {K : Type} [LinearOrder K]

/-- Of a descending list, what is not among the first `n` has `n` before it. -/
theorem lt_countP_of_not_mem_take {l : List (FaceBox K)} {a : FaceBox K} {n : Nat}
    (hl : l.Pairwise fun a b => b.score ≤ a.score) (ha : a ∈ l) (hout : a ∉ l.take n) :
    n < l.countP fun b => decide (a.score ≤ b.score) := by
  have hrest : a ∈ l.drop n := by
    rw [← List.take_append_drop n l] at ha
    exact (List.mem_append.mp ha).resolve_left hout
  have hlength : n < l.length := by
    have hpos := List.length_pos_of_mem hrest
    rw [List.length_drop] at hpos
    omega
  have hsplit := hl
  rw [← List.take_append_drop n l, List.pairwise_append] at hsplit
  have hfirst : (l.take n).countP (fun b => decide (a.score ≤ b.score)) = n := by
    have hall : ∀ b ∈ l.take n, decide (a.score ≤ b.score) = true :=
      fun b hb => decide_eq_true (hsplit.2.2 b hb a hrest)
    rw [List.countP_eq_length.mpr hall, List.length_take]
    omega
  have hlast : 0 < (l.drop n).countP fun b => decide (a.score ≤ b.score) :=
    List.countP_pos_iff.mpr ⟨a, hrest, decide_eq_true le_rfl⟩
  calc n = (l.take n).countP fun b => decide (a.score ≤ b.score) := hfirst.symm
    _ < (l.take n).countP (fun b => decide (a.score ≤ b.score)) +
          (l.drop n).countP fun b => decide (a.score ≤ b.score) := Nat.lt_add_of_pos_right hlast
    _ = (l.take n ++ l.drop n).countP fun b => decide (a.score ≤ b.score) :=
          List.countP_append.symm
    _ = l.countP fun b => decide (a.score ≤ b.score) := by rw [List.take_append_drop]

/-- The candidates, the best first. -/
def byScore (candidates : List (FaceBox K)) : List (FaceBox K) :=
  candidates.mergeSort fun a b => decide (b.score ≤ a.score)

theorem byScore_pairwise (candidates : List (FaceBox K)) :
    (byScore candidates).Pairwise fun a b => b.score ≤ a.score := by
  have htrans : ∀ a b c : FaceBox K, decide (b.score ≤ a.score) = true →
      decide (c.score ≤ b.score) = true → decide (c.score ≤ a.score) = true := by
    intro a b c hab hbc
    exact decide_eq_true ((of_decide_eq_true hbc).trans (of_decide_eq_true hab))
  have htotal : ∀ a b : FaceBox K,
      (decide (b.score ≤ a.score) || decide (a.score ≤ b.score)) = true := by
    intro a b
    rw [Bool.or_eq_true, decide_eq_true_iff, decide_eq_true_iff]
    exact le_total _ _
  exact (List.pairwise_mergeSort htrans htotal candidates).imp of_decide_eq_true

end Ranking

section Selection

variable {K : Type} [Field K] [LinearOrder K] {face : Cell → FaceBox K}

/-- What is left of the cells of an image. -/
structure Detected (face : Cell → FaceBox K) (faces : List (FaceBox K)) : Prop where
  found : ∀ f ∈ faces, scoreThreshold ≤ f.score ∧ ∃ cell ∈ cells, face cell = f
  ranked : faces.Pairwise fun a b => b.score ≤ a.score
  apart : faces.Pairwise fun a b => iou a b < nmsIouThreshold ∧ iou b a < nmsIouThreshold
  /-- A cell that reaches the threshold has its face among them, or overlaps one that scores
  no less; or there are more cells that do than are considered. -/
  covered : ∀ cell ∈ cells, scoreThreshold ≤ (face cell).score →
    (∃ f ∈ faces, (face cell).score ≤ f.score ∧
      (f = face cell ∨ nmsIouThreshold ≤ iou (face cell) f)) ∨
    preNmsTopK < cells.countP fun cell' => decide ((face cell).score ≤ (face cell').score)
  best : ∀ f, faces.head? = some f → ∀ cell ∈ cells, scoreThreshold ≤ (face cell).score →
    (face cell).score ≤ f.score
  none : faces = [] ↔ ∀ cell ∈ cells, (face cell).score < scoreThreshold

theorem selectFaces_sublist (candidates : List (FaceBox K)) :
    (selectFaces candidates).Sublist (byScore candidates) :=
  (Greedy.keep_sublist _).trans (List.take_sublist _ _)

/-- The best candidate is left. -/
theorem head_selectFaces (candidates : List (FaceBox K)) :
    (selectFaces candidates).head? = (byScore candidates).head? := by
  cases hlist : byScore candidates with
  | nil =>
      have hnone := selectFaces_sublist candidates
      rw [hlist, List.sublist_nil] at hnone
      rw [hnone]
  | cons a rest =>
      have hcut : (byScore candidates).take preNmsTopK = a :: rest.take (preNmsTopK - 1) := by
        rw [hlist]
        rfl
      unfold selectFaces nonMaxSuppression
      rw [show candidates.mergeSort (fun a b => decide (b.score ≤ a.score)) =
        byScore candidates from rfl, hcut]
      exact Greedy.head_keep a _

/-- A candidate that was considered is left, or overlaps one that is and scores no less. -/
theorem selectFaces_covers {candidates : List (FaceBox K)} {a : FaceBox K}
    (ha : a ∈ (byScore candidates).take preNmsTopK) :
    ∃ f ∈ selectFaces candidates, a.score ≤ f.score ∧
      (f = a ∨ nmsIouThreshold ≤ iou a f) := by
  have hcut : ((byScore candidates).take preNmsTopK).Pairwise fun a b => b.score ≤ a.score :=
    (byScore_pairwise candidates).sublist (List.take_sublist _ _)
  by_cases hin : a ∈ selectFaces candidates
  · exact ⟨a, hin, le_rfl, Or.inl rfl⟩
  · obtain ⟨f, hf, hscore, hclash⟩ := Greedy.exists_clash hcut ha hin
    exact ⟨f, hf, hscore, Or.inr (of_decide_eq_true hclash)⟩

theorem mem_byScore {f : FaceBox K} : f ∈ byScore (candidatesOf face) ↔
    scoreThreshold ≤ f.score ∧ ∃ cell ∈ cells, face cell = f := by
  unfold byScore candidatesOf
  rw [List.mem_mergeSort, List.mem_filter, List.mem_map, decide_eq_true_iff, and_comm]

theorem countP_byScore_le (face : Cell → FaceBox K) (x : K) :
    (byScore (candidatesOf face)).countP (fun b => decide (x ≤ b.score)) ≤
      cells.countP fun cell => decide (x ≤ (face cell).score) := by
  have hperm : (byScore (candidatesOf face)).Perm (candidatesOf face) := List.mergeSort_perm _ _
  calc (byScore (candidatesOf face)).countP (fun b => decide (x ≤ b.score))
      = (candidatesOf face).countP fun b => decide (x ≤ b.score) := hperm.countP_eq _
    _ ≤ (cells.map face).countP fun b => decide (x ≤ b.score) := List.filter_sublist.countP_le
    _ = cells.countP fun cell => decide (x ≤ (face cell).score) := List.countP_map

/-- Sorting, cutting off and suppressing leave what they should. -/
theorem selectFaces_detected (face : Cell → FaceBox K) :
    Detected face (selectFaces (candidatesOf face)) := by
  have hsorted := byScore_pairwise (candidatesOf face)
  have hsublist := selectFaces_sublist (candidatesOf face)
  constructor
  · intro f hf
    exact mem_byScore.mp (hsublist.subset hf)
  · exact hsorted.sublist hsublist
  · apply (Greedy.pairwise_keep ((byScore (candidatesOf face)).take preNmsTopK)).imp
    intro a b hclash
    have hlt : iou b a < nmsIouThreshold := not_le.mp (of_decide_eq_false hclash)
    rw [iou_comm a b]
    exact ⟨hlt, hlt⟩
  · intro cell hcell hreach
    have hface := mem_byScore.mpr ⟨hreach, cell, hcell, rfl⟩
    by_cases hconsidered : face cell ∈ (byScore (candidatesOf face)).take preNmsTopK
    · exact Or.inl (selectFaces_covers hconsidered)
    · have hmany := lt_countP_of_not_mem_take hsorted hface hconsidered
      exact Or.inr (hmany.trans_le (countP_byScore_le face _))
  · intro f hf cell hcell hreach
    have hface := mem_byScore.mpr ⟨hreach, cell, hcell, rfl⟩
    rw [head_selectFaces] at hf
    cases hlist : byScore (candidatesOf face) with
    | nil =>
        rw [hlist] at hf
        cases hf
    | cons a rest =>
        rw [hlist] at hf hface hsorted
        have ha : a = f := Option.some.inj hf
        subst ha
        rcases List.mem_cons.mp hface with heq | hrest
        · rw [heq]
        · exact (List.pairwise_cons.mp hsorted).1 _ hrest
  · rw [← List.head?_eq_none_iff, head_selectFaces, List.head?_eq_none_iff,
      List.eq_nil_iff_forall_not_mem]
    constructor
    · intro hnone cell hcell
      apply not_le.mp
      intro hreach
      exact hnone _ (mem_byScore.mpr ⟨hreach, cell, hcell, rfl⟩)
    · intro hlow f hf
      obtain ⟨hreach, cell, hcell, rfl⟩ := mem_byScore.mp hf
      exact absurd hreach (hlow cell hcell).not_ge

variable [IsStrictOrderedRing K]

/-- Overlap does not depend on the scale. -/
theorem iou_rescale {sx sy : K} (hx : 0 < sx) (hy : 0 < sy) (a b : FaceBox K) :
    iou (a.rescale sx sy) (b.rescale sx sy) = iou a b := by
  have hscale : 0 < sx * sy := mul_pos hx hy
  have hshared : (a.rescale sx sy).shared (b.rescale sx sy) = sx * sy * a.shared b := by
    have hlength : ∀ (s x u y v : K), 0 < s →
        Intervals.overlap (x * s) (u * s) (y * s) (v * s) = s * Intervals.overlap x u y v := by
      intro s x u y v hs
      unfold Intervals.overlap
      rw [← add_mul, ← add_mul, ← max_mul_of_nonneg _ _ hs.le, ← min_mul_of_nonneg _ _ hs.le,
        ← sub_mul, mul_comm s, max_mul_of_nonneg _ _ hs.le, zero_mul]
    unfold FaceBox.shared FaceBox.rescale
    dsimp only
    rw [hlength sx _ _ _ _ hx, hlength sy _ _ _ _ hy]
    ring
  have harea : ∀ c : FaceBox K, (c.rescale sx sy).area = sx * sy * c.area := by
    intro c
    unfold FaceBox.area FaceBox.rescale
    ring
  have hcovered : (a.rescale sx sy).covered (b.rescale sx sy) = sx * sy * a.covered b := by
    unfold FaceBox.covered
    rw [harea, harea, hshared]
    ring
  rw [iou_eq, iou_eq, hshared, hcovered, mul_div_mul_left _ _ hscale.ne']
  have hsign : sx * sy * a.covered b ≤ 0 ↔ a.covered b ≤ 0 := by
    constructor
    · intro hle
      exact nonpos_of_mul_nonpos_right hle hscale
    · intro hle
      exact mul_nonpos_of_nonneg_of_nonpos hscale.le hle
  simp only [hsign]

/-- What is detected in the model's coordinates is in the image's. -/
theorem Detected.rescale {faces : List (FaceBox K)} (h : Detected face faces) {sx sy : K}
    (hx : 0 < sx) (hy : 0 < sy) :
    Detected (fun cell => (face cell).rescale sx sy)
      (faces.map (FaceBox.rescale sx sy)) := by
  have hscore : ∀ f : FaceBox K, (f.rescale sx sy).score = f.score := fun _ => rfl
  constructor
  · intro f' hf'
    rcases List.mem_map.mp hf' with ⟨f, hf, rfl⟩
    rcases h.found f hf with ⟨hreach, cell, hcell, rfl⟩
    exact ⟨hreach, cell, hcell, rfl⟩
  · exact List.pairwise_map.mpr h.ranked
  · apply List.pairwise_map.mpr
    apply h.apart.imp
    intro a b hab
    rw [iou_rescale hx hy, iou_rescale hx hy]
    exact hab
  · intro cell hcell hreach
    rcases h.covered cell hcell hreach with ⟨f, hf, hle, hf'⟩ | hmany
    · left
      refine ⟨f.rescale sx sy, List.mem_map_of_mem hf, hle, ?_⟩
      rcases hf' with rfl | hoverlap
      · exact Or.inl rfl
      · right
        rw [iou_rescale hx hy]
        exact hoverlap
    · exact Or.inr hmany
  · intro f' hf' cell hcell hreach
    rw [List.head?_map] at hf'
    rcases Option.map_eq_some_iff.mp hf' with ⟨f, hf, rfl⟩
    exact h.best f hf cell hcell hreach
  · rw [List.map_eq_nil_iff]
    exact h.none

end Selection

/-! ## Detection -/

section Detection

variable {K : Type} [Field K] [LinearOrder K] [FloorRing K] {sqrt exp : K → K}
  {session : Session K} {rgb : List UInt8} {w h : UInt32}

/-- The network's outputs have the shapes of its declaration. -/
def Session.WellShaped (session : Session K) : Prop :=
  ∀ input outputs, session input = .ok outputs → ∀ stride ∈ strides, ∀ out,
    outputs stride = .ok out → out.Fits (inputSize / stride * (inputSize / stride))

/-- The faces of an image, as the outputs of the network tell. -/
def facesOf (sqrt exp : K → K) (outputs : Nat → Except String (StrideOutput K)) (w h : UInt32)
    (cell : Cell) : FaceBox K :=
  (faceAt sqrt exp outputs cell).rescale (w.toNat / inputSize) (h.toNat / inputSize)

/-- What `detect` returns on an image, where `input` is the tensor of its resized pixels. -/
inductive Outcome (sqrt exp : K → K) (session : Session K) (w h : UInt32) (input : List K) :
    Except String (List (FaceBox K)) → Prop where
  | run {err : String} (hrun : session input = .error err) :
      Outcome sqrt exp session w h input (.error err)
  | extract {outputs : Nat → Except String (StrideOutput K)} {stride : Nat} {err : String}
      (hrun : session input = .ok outputs) (hstride : stride ∈ strides)
      (hextract : outputs stride = .error err) : Outcome sqrt exp session w h input (.error err)
  | faces {outputs : Nat → Except String (StrideOutput K)} {faces : List (FaceBox K)}
      (hrun : session input = .ok outputs)
      (hfaces : Detected (facesOf sqrt exp outputs w h) faces) :
      Outcome sqrt exp session w h input (.ok faces)

variable [IsStrictOrderedRing K]

/-- The size that the network takes. -/
theorem resize_input (himage : IsImage rgb w h) :
    ∃ resized, resizeBilinearRgb K rgb w h (UInt32.ofNat inputSize) (UInt32.ofNat inputSize) =
        some resized ∧ resized.length = inputSize * inputSize * 3 ∧
      ∀ x y, x < inputSize → y < inputSize → ∀ c : Fin 3,
        pixelAt resized inputSize c x y = (resizedAt K rgb w h (UInt32.ofNat inputSize)
          (UInt32.ofNat inputSize) c x y).toNat := by
  have hsize : (UInt32.ofNat inputSize).toNat = inputSize := by decide
  have hsample : ∀ dx dy, dx < (UInt32.ofNat inputSize).toNat →
      dy < (UInt32.ofNat inputSize).toNat → ∀ c : Fin 3,
      resizedChannel K rgb w h (UInt32.ofNat inputSize) (UInt32.ofNat inputSize) dx dy c =
        some (resizedAt K rgb w h (UInt32.ofNat inputSize) (UInt32.ofNat inputSize) c dx dy) := by
    intro dx dy hx hy c
    have hc : (UInt32.ofNat c).toNat = c := by
      rw [UInt32.toNat_ofNat']
      omega
    exact sampleChannel_clamped himage (sourceAt_clamped himage.width hx)
      (sourceAt_clamped himage.height hy) hc
  have hzero : IsImage (List.replicate (UInt32.ofNat inputSize * UInt32.ofNat inputSize * 3).toNat
      0) (UInt32.ofNat inputSize) (UInt32.ofNat inputSize) :=
    isImage_zero (by decide) (by decide) (by decide)
  rcases loops_fill hsample hzero with ⟨out, hrun, hout⟩
  rw [hsize] at hout
  refine ⟨out, hrun, ?_, ?_⟩
  · have hlength := hout.image.length
    rw [hsize] at hlength
    exact hlength
  · intro x y hx hy c
    have hlast : (y * inputSize + x) * 3 + c < inputSize * inputSize * 3 := by
      have hcell := cell_lt hx hy
      have hc := c.isLt
      omega
    have hvalue := hout.values x y c (hsize.symm ▸ hx) (by rw [hsize]; exact hlast)
    rw [hsize] at hvalue
    unfold pixelAt
    rw [List.getD_eq_getElem?_getD, hvalue]
    rfl

/-- The tensor that the network is given: the resized image in planes, blue first. -/
structure IsInput (K : Type) [Field K] [LinearOrder K] [FloorRing K] (rgb : List UInt8)
    (w h : UInt32) (input : List K) : Prop where
  length : input.length = 3 * inputSize * inputSize
  values : ∀ x y, x < inputSize → y < inputSize → ∀ p : Fin 3,
    input[p * (inputSize * inputSize) + (y * inputSize + x)]? =
      some ((resizedAt K rgb w h (UInt32.ofNat inputSize) (UInt32.ofNat inputSize) (Fin.rev p)
        x y).toNat : K)

theorem buildInputTensor_eq (himage : IsImage rgb w h) :
    ∃ input, buildInputTensor rgb w h = some input ∧ IsInput K rgb w h input := by
  rcases resize_input (K := K) himage with ⟨resized, hresize, hlength, hpixels⟩
  rcases planes_eq K Fin.rev hlength with ⟨input, hplanes, hinput⟩
  refine ⟨input, ?_, ?_⟩
  · unfold buildInputTensor
    rw [hresize, Option.bind_eq_bind, Option.bind_some]
    exact hplanes
  · constructor
    · exact hinput.length
    · intro x y hx hy p
      have hcell : y * inputSize + x < inputSize * inputSize := cell_lt hx hy
      have hvalue := hinput.values x y p hx hy hcell
      rw [hpixels x y hx hy] at hvalue
      exact hvalue

/-- `detect` returns. -/
theorem detect_eq (himage : IsImage rgb w h) (hshape : session.WellShaped) :
    ∃ input result, IsInput K rgb w h input ∧ detect sqrt exp session rgb w h = some result ∧
      Outcome sqrt exp session w h input result := by
  rcases buildInputTensor_eq (K := K) himage with ⟨input, hbuild, hinput⟩
  have hsize : (0 : K) < inputSize := by
    have hpos : 0 < inputSize := by decide
    exact_mod_cast hpos
  have hside : ∀ n : UInt32, 1 ≤ n.toNat → (0 : K) < n.toNat / inputSize := by
    intro n hn
    have hpos : (0 : K) < n.toNat := by exact_mod_cast hn
    exact div_pos hpos hsize
  unfold detect
  rw [hbuild]
  simp only [Option.bind_eq_bind, Option.bind_some]
  cases hrun : session input with
  | error err => exact ⟨input, _, hinput, rfl, .run hrun⟩
  | ok outputs =>
      have hfits := hshape input outputs hrun
      have hdecoded := @decodeStrides_eq K _ _ sqrt exp outputs strides hfits []
      rcases hdecoded with ⟨err, hdecode, stride, hstride, hextract⟩ | hdecode
      · refine ⟨input, .error err, hinput, ?_, .extract hrun hstride hextract⟩
        dsimp only
        rw [hdecode]
        rfl
      · have hfaces := (selectFaces_detected (faceAt sqrt exp outputs)).rescale
          (hside w himage.width) (hside h himage.height)
        rw [List.nil_append, candidates_eq] at hdecode
        refine ⟨input, .ok _, hinput, ?_, .faces hrun hfaces⟩
        dsimp only
        rw [hdecode]
        rfl

/-- A network that sees no face. -/
def blindSession (K : Type) [Field K] : Session K := fun _ => .ok fun stride =>
  let count := inputSize / stride * (inputSize / stride)
  .ok ⟨List.replicate count 0, List.replicate count 0, List.replicate (count * 4) 0,
    List.replicate (count * 10) 0⟩

theorem blindSession_wellShaped (K : Type) [Field K] : (blindSession K).WellShaped := by
  intro input outputs hrun stride _ out hout
  cases hrun
  cases hout
  constructor
  · exact List.length_replicate
  · exact List.length_replicate
  · exact List.length_replicate
  · exact List.length_replicate

end Detection

end AnatoliaBis.Biometric

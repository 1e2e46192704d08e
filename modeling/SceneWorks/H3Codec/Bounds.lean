import Mathlib.Tactic.Ring
import Mathlib.Tactic.Linarith
import SceneWorks.H3Codec.Architecture
import SceneWorks.Library.Fallible

/-!
Which products of an accepted architecture fit in 64 bits. Every factor but one is a
dimension below 2^31 or the rest of a checked product; the exception is the input width of
the patch projection, a dimension times a patch volume that is only checked on its own.
-/

namespace SceneWorks.H3Codec

open Fallible

variable {printable : Char → Bool} {mul : Mul} {config : Json}

/-- The arithmetic is exact wherever the product fits. -/
def Fits (mul : Mul) : Prop := ∀ a b, a * b < 2 ^ 64 → mul a b = exact a b

theorem fits_wrapping : Fits wrapping := fun a b h => by
  rw [wrapping, Nat.mod_eq_of_lt h, exact]

theorem trapping_eq_ok_iff {a b c : Nat} : trapping a b = .ok c ↔ a * b < 2 ^ 64 ∧ c = a * b := by
  rw [trapping]
  split
  · next h => exact ⟨fun heq => ⟨h, (Except.ok.inj heq).symm⟩, fun heq => by rw [heq.2]⟩
  · next h => exact ⟨nofun, fun heq => absurd heq.1 h⟩

theorem fits_trapping : Fits trapping := fun _ _ h => trapping_eq_ok_iff.mpr ⟨h, rfl⟩

theorem dim_bounds {name : String} {v : Nat} (h : dim printable config name = .ok v) :
    0 < v ∧ v < 2 ^ 31 := by
  have hsome := okOr_eq_ok.mp h
  rw [Option.filter_eq_some_iff, decide_eq_true_eq] at hsome
  omega

/-- Two steps that agree wherever the first succeeds. -/
theorem bind_congr_ok {ε α β : Type} {x : Except ε α} {f g : α → Except ε β}
    (h : ∀ a, x = .ok a → f a = g a) : (x >>= f) = (x >>= g) := by
  cases x with
  | error e => rfl
  | ok a => exact h a rfl

theorem mapM_congr {ε α β : Type} {f g : α → Except ε β} {l : List α}
    (h : ∀ a ∈ l, f a = g a) : l.mapM f = l.mapM g := by
  induction l with
  | nil => rfl
  | cons a l ih =>
      rw [List.mapM_cons, List.mapM_cons, h a List.mem_cons_self,
        ih fun b hb => h b (List.mem_cons_of_mem a hb)]

theorem fits_of_dims {a b m n : Nat} (hfits : Fits mul) (ha : a ≤ m) (hb : b ≤ n)
    (hmn : m * n < 2 ^ 64) : mul a b = exact a b :=
  hfits a b (Nat.lt_of_le_of_lt (Nat.mul_le_mul ha hb) hmn)

section Validate

theorem checkRope_eq (hfits : Fits mul) :
    checkRope printable mul config = checkRope printable exact config := by
  refine bind_congr_ok fun rope hrope => ?_
  rw [fits_of_dims hfits (Nat.le_refl 6) (Nat.le_of_lt (dim_bounds hrope).2) (by norm_num)]

theorem validate_eq (hfits : Fits mul) :
    validate printable mul config = validate printable exact config := by
  unfold validate
  rw [checkRope_eq hfits]

theorem checkDims_ok {fields : List String} (h : checkDims printable config fields = .ok ()) :
    ∀ field ∈ fields, ∃ v, dim printable config field = .ok v := by
  induction fields with
  | nil => exact fun field hfield => (List.not_mem_nil hfield).elim
  | cons first fields ih =>
      obtain ⟨v, hv, hrest⟩ := bind_eq_ok.mp h
      intro field hfield
      cases List.mem_cons.mp hfield with
      | inl heq => exact ⟨v, heq ▸ hv⟩
      | inr hmem => exact ih hrest field hmem

/-- What an accepted document has: every dimension, and a patch volume. -/
structure Accepted (printable : Char → Bool) (config : Json) : Prop where
  dims : ∀ field ∈ dimFields, ∃ v, dim printable config field = .ok v
  patch : ∃ volume, patchVolume config = .ok volume

theorem accepted_of_validate (h : validate printable mul config = .ok ()) :
    Accepted printable config := by
  obtain ⟨_, -, h⟩ := bind_eq_ok.mp h
  obtain ⟨_, hdims, h⟩ := bind_eq_ok.mp h
  obtain ⟨_, -, h⟩ := bind_eq_ok.mp h
  obtain ⟨_, -, h⟩ := bind_eq_ok.mp h
  obtain ⟨volume, hpatch, -⟩ := bind_eq_ok.mp h
  exact ⟨checkDims_ok hdims, volume, hpatch⟩

end Validate

section Shapes

variable {h q f t : Nat}

theorem blockShapes_eq (hfits : Fits mul) (hh : h < 2 ^ 31) (hf : f < 2 ^ 31) (container : String)
    (modulated : Bool) (i : Nat) :
    blockShapes printable mul config h q f t container modulated i =
      blockShapes printable exact config h q f t container modulated i := by
  have hgate : mul 2 f = exact 2 f :=
    fits_of_dims hfits (Nat.le_refl 2) (Nat.le_of_lt hf) (by norm_num)
  have hrows : mul 18 h = exact 18 h :=
    fits_of_dims hfits (Nat.le_refl 18) (Nat.le_of_lt hh) (by norm_num)
  unfold blockShapes
  rw [hgate, hrows]

/-- The one unchecked product that a large patch makes too large. -/
def PatchFits (printable : Char → Bool) (config : Json) : Prop :=
  ∀ channels volume, dim printable config "in_channels" = .ok channels →
    patchVolume config = .ok volume → channels * volume < 2 ^ 64

theorem patchInput_eq (hfits : Fits mul) (hpatch : PatchFits printable config) :
    patchInput printable mul config = patchInput printable exact config :=
  bind_congr_ok fun channels hchannels => bind_congr_ok fun volume hvolume =>
    hfits channels volume (hpatch channels volume hchannels hvolume)

theorem headShapes_eq (hfits : Fits mul) (hpatch : PatchFits printable config)
    (hh : h < 2 ^ 31) :
    headShapes printable mul config h t = headShapes printable exact config h t := by
  have hnorm : mul 2 h = exact 2 h :=
    fits_of_dims hfits (Nat.le_refl 2) (Nat.le_of_lt hh) (by norm_num)
  unfold headShapes
  rw [hnorm, patchInput_eq hfits hpatch]

theorem shapes_eq (hfits : Fits mul) (hpatch : PatchFits printable config) :
    shapes printable mul config = shapes printable exact config := by
  unfold shapes
  rw [validate_eq hfits]
  refine bind_congr_ok fun _ _ => bind_congr_ok fun h hh => bind_congr_ok fun q _ =>
    bind_congr_ok fun f hf => ?_
  have hblock :
      blockShapes printable mul config h q f = blockShapes printable exact config h q f := by
    funext t container modulated i
    exact blockShapes_eq hfits (dim_bounds hh).2 (dim_bounds hf).2 container modulated i
  rw [hblock]
  refine bind_congr_ok fun t _ => ?_
  rw [headShapes_eq hfits hpatch (dim_bounds hh).2]

theorem prunedShapes_eq (hfits : Fits mul) (hpatch : PatchFits printable config)
    (tableKey : String) (grid rank : Nat) :
    prunedShapes printable mul tableKey config grid rank =
      prunedShapes printable exact tableKey config grid rank := by
  unfold prunedShapes
  rw [shapes_eq hfits hpatch]

end Shapes

section Native

variable {width : Nat} {shape : List Nat}

theorem payloadSize_pair {a b size : Nat} (h : payloadSize width [a, b] = some size) :
    width * a * b < 2 ^ 64 := by
  simp only [payloadSize, List.foldlM_cons, List.foldlM_nil, Option.bind_eq_bind,
    Option.bind_eq_some_iff, Option.pure_def] at h
  obtain ⟨n, hn, m, hm, -⟩ := h
  obtain ⟨-, rfl⟩ := checkedMul_eq_some.mp hn
  exact (checkedMul_eq_some.mp hm).1

/-- A product of a part of the payload and the rest fits as the payload does. -/
theorem fits_of_payload (hfits : Fits mul) {a b size : Nat} (hle : a * b ≤ size)
    (hsize : size < 2 ^ 64) : mul a b = exact a b :=
  hfits a b (Nat.lt_of_le_of_lt hle hsize)

/-- Every range of a fused projection lies within its payload. -/
theorem qkvRanges_eq (hfits : Fits mul) {heads headDim hidden j : Nat} (hj : j < 3)
    (hheads : heads < 2 ^ 31) (hheadDim : headDim < 2 ^ 31)
    (hsize : 3 * (heads * headDim) * (hidden * width) < 2 ^ 64) (layout : H3QkvLayout) :
    qkvRanges mul layout (heads * headDim) (hidden * width) headDim heads j =
      qkvRanges exact layout (heads * headDim) (hidden * width) headDim heads j := by
  have hq : heads * headDim ≤ 2 ^ 62 := by
    calc heads * headDim ≤ 2 ^ 31 * 2 ^ 31 :=
          Nat.mul_le_mul (Nat.le_of_lt hheads) (Nat.le_of_lt hheadDim)
      _ = 2 ^ 62 := by norm_num
  cases layout with
  | contiguous =>
      have hfirst : mul j (heads * headDim) = exact j (heads * headDim) :=
        fits_of_dims hfits (Nat.le_of_lt hj) hq (by norm_num)
      have hstart : mul (j * (heads * headDim)) (hidden * width) =
          exact (j * (heads * headDim)) (hidden * width) :=
        fits_of_payload hfits
          (Nat.mul_le_mul_right _ (Nat.mul_le_mul_right _ (Nat.le_of_lt hj))) hsize
      have hlen : mul (heads * headDim) (hidden * width) =
          exact (heads * headDim) (hidden * width) :=
        fits_of_payload hfits (Nat.mul_le_mul_right _ (by omega)) hsize
      rw [qkvRanges, qkvRanges, hfirst]
      refine bind_congr_ok fun start hs => ?_
      rw [← Except.ok.inj hs, hstart, hlen]
  | interleaved =>
      refine mapM_congr fun h hh => ?_
      have hrow : h * 3 + j ≤ 3 * heads := by
        have hlt := List.mem_range.mp hh
        omega
      have hgroup : mul h 3 = exact h 3 :=
        fits_of_dims hfits (Nat.le_of_lt (Nat.lt_trans (List.mem_range.mp hh) hheads))
          (Nat.le_refl 3) (by norm_num)
      have hwithin : (h * 3 + j) * headDim ≤ 3 * (heads * headDim) := by
        calc (h * 3 + j) * headDim ≤ 3 * heads * headDim := Nat.mul_le_mul_right _ hrow
          _ = 3 * (heads * headDim) := Nat.mul_assoc ..
      have hoffset : mul (h * 3 + j) headDim = exact (h * 3 + j) headDim :=
        hfits _ _ (by omega)
      have hstart : mul ((h * 3 + j) * headDim) (hidden * width) =
          exact ((h * 3 + j) * headDim) (hidden * width) :=
        fits_of_payload hfits (Nat.mul_le_mul_right _ hwithin) hsize
      have hone : headDim ≤ 3 * (heads * headDim) := by
        calc headDim ≤ heads * headDim :=
              Nat.le_mul_of_pos_left _ (by have := List.mem_range.mp hh; omega)
          _ ≤ 3 * (heads * headDim) := by omega
      have hlen : mul headDim (hidden * width) = exact headDim (hidden * width) :=
        fits_of_payload hfits (Nat.mul_le_mul_right _ hone) hsize
      rw [hgroup]
      refine bind_congr_ok fun group hgr => ?_
      rw [← Except.ok.inj hgr, hoffset]
      refine bind_congr_ok fun offset hoff => ?_
      rw [← Except.ok.inj hoff, hstart, hlen]

theorem qkvOutputs_eq (hfits : Fits mul) {size : Nat} (hsize : payloadSize width shape = some size)
    (key : String) (layout : H3QkvLayout) (base : String) :
    qkvOutputs printable mul key config layout shape width base =
      qkvOutputs printable exact key config layout shape width base := by
  unfold qkvOutputs
  refine bind_congr_ok fun heads hheads => bind_congr_ok fun headDim hheadDim => ?_
  have hheads' := (dim_bounds hheads).2
  have hheadDim' := (dim_bounds hheadDim).2
  have hq : mul heads headDim = exact heads headDim :=
    fits_of_dims hfits (Nat.le_of_lt hheads') (Nat.le_of_lt hheadDim') (by norm_num)
  have hwidth : heads * headDim ≤ 2 ^ 62 := by
    calc heads * headDim ≤ 2 ^ 31 * 2 ^ 31 :=
          Nat.mul_le_mul (Nat.le_of_lt hheads') (Nat.le_of_lt hheadDim')
      _ = 2 ^ 62 := by norm_num
  rw [hq]
  refine bind_congr_ok fun q hqv => ?_
  obtain rfl : heads * headDim = q := Except.ok.inj hqv
  refine bind_congr_ok fun hidden hhidden => ?_
  have hthree : mul 3 (heads * headDim) = exact 3 (heads * headDim) :=
    fits_of_dims hfits (Nat.le_refl 3) hwidth (by norm_num)
  rw [hthree]
  refine bind_congr_ok fun fused hfused => ?_
  obtain rfl : 3 * (heads * headDim) = fused := Except.ok.inj hfused
  split
  · rfl
  · next hshape =>
      rw [Decidable.not_not.mp hshape] at hsize
      have hpayload := payloadSize_pair hsize
      have hall : 3 * (heads * headDim) * (hidden * width) < 2 ^ 64 := by
        calc 3 * (heads * headDim) * (hidden * width) =
              width * (3 * (heads * headDim)) * hidden := by ring
          _ < 2 ^ 64 := hpayload
      have hrow : mul hidden width = exact hidden width := by
        refine fits_of_payload hfits (Nat.le_mul_of_pos_left _ ?_) hall
        have hpos := Nat.mul_pos (dim_bounds hheads).1 (dim_bounds hheadDim).1
        omega
      rw [hrow]
      refine bind_congr_ok fun row hrowv => ?_
      obtain rfl : hidden * width = row := Except.ok.inj hrowv
      refine bind_congr_ok fun headDim2 hheadDim2 => bind_congr_ok fun heads2 hheads2 => ?_
      obtain rfl : headDim = headDim2 := Except.ok.inj (hheadDim.symm.trans hheadDim2)
      obtain rfl : heads = heads2 := Except.ok.inj (hheads.symm.trans hheads2)
      refine mapM_congr fun leaf hleaf => ?_
      have hj : leaf.2 < 3 := by
        have hcases : leaf = ("to_q", 0) ∨ leaf = ("to_k", 1) ∨ leaf = ("to_v", 2) := by
          simpa using hleaf
        obtain rfl | rfl | rfl := hcases <;> decide
      unfold qkvOutput
      rw [qkvRanges_eq hfits hj hheads' hheadDim' hall layout]

theorem nativeOutputs_eq (hfits : Fits mul) (key : String) (layout : H3QkvLayout)
    (shape : List Nat) (width : Nat) :
    nativeOutputs printable mul key config layout shape width =
      nativeOutputs printable exact key config layout shape width := by
  refine bind_congr_ok fun size hsize => ?_
  dsimp only
  cases Text.stripBack ".attn.qkv_proj.weight" (normalizedKey key) with
  | some base => exact qkvOutputs_eq hfits (okOr_eq_ok.mp hsize) key layout base
  | none =>
      dsimp only
      cases Text.stripBack ".mlp.fc1.weight" (normalizedKey key) with
      | none => rfl
      | some base =>
          refine bind_congr_ok fun f hf => ?_
          rw [fits_of_dims hfits (Nat.le_refl 2) (Nat.le_of_lt (dim_bounds hf).2) (by norm_num)]

end Native

section Exact

/-- No product wraps, and none stops a build that checks: the code's arithmetic is the exact one. -/
def NeverWraps (printable : Char → Bool) (tableKey : String) (config : Json) : Prop :=
  ∀ mul : Mul, mul = trapping ∨ mul = wrapping →
    shapes printable mul config = shapes printable exact config ∧
      (∀ grid rank, prunedShapes printable mul tableKey config grid rank =
        prunedShapes printable exact tableKey config grid rank) ∧
      ∀ key layout shape width, nativeOutputs printable mul key config layout shape width =
        nativeOutputs printable exact key config layout shape width

theorem mapM_ok {α β : Type} {f : α → Except String β} (l : List α)
    (h : ∀ a ∈ l, ∃ b, f a = .ok b) : ∃ r, l.mapM f = .ok r := by
  induction l with
  | nil => exact ⟨[], rfl⟩
  | cons a l ih =>
      obtain ⟨b, hb⟩ := h a List.mem_cons_self
      obtain ⟨r, hr⟩ := ih fun c hc => h c (List.mem_cons_of_mem a hc)
      exact ⟨b :: r, by rw [List.mapM_cons, hb, hr]; rfl⟩

theorem blockShapes_ok (haccepted : Accepted printable config) (h q f t : Nat)
    (container : String) (modulated : Bool) (i : Nat) :
    ∃ entries, blockShapes printable exact config h q f t container modulated i = .ok entries := by
  obtain ⟨headDim, hheadDim⟩ := haccepted.dims "attention_head_dim" (by decide)
  unfold blockShapes
  rw [hheadDim]
  cases modulated with
  | true => exact ⟨_, rfl⟩
  | false => exact ⟨_, rfl⟩

theorem headShapes_ok (haccepted : Accepted printable config) (h t : Nat) :
    ∃ entries, headShapes printable exact config h t = .ok entries := by
  obtain ⟨channels, hchannels⟩ := haccepted.dims "in_channels" (by decide)
  obtain ⟨volume, hvolume⟩ := haccepted.patch
  obtain ⟨audio, haudio⟩ := haccepted.dims "audio_in_channels" (by decide)
  obtain ⟨text, htext⟩ := haccepted.dims "text_dim" (by decide)
  obtain ⟨hidden, hhidden⟩ := haccepted.dims "time_embed_hidden_dim" (by decide)
  obtain ⟨freq, hfreq⟩ := haccepted.dims "freq_dim" (by decide)
  unfold headShapes patchInput
  rw [hchannels, hvolume, haudio, htext, hhidden, hfreq]
  exact ⟨_, rfl⟩

/-- With exact arithmetic an accepted document has its shapes. -/
theorem shapes_ok (hvalid : validate printable exact config = .ok ()) :
    ∃ names, shapes printable exact config = .ok names := by
  have haccepted := accepted_of_validate hvalid
  obtain ⟨h, hh⟩ := haccepted.dims "hidden_size" (by decide)
  obtain ⟨heads, hheads⟩ := haccepted.dims "num_attention_heads" (by decide)
  obtain ⟨headDim, hheadDim⟩ := haccepted.dims "attention_head_dim" (by decide)
  obtain ⟨f, hf⟩ := haccepted.dims "ffn_dim" (by decide)
  obtain ⟨t, ht⟩ := haccepted.dims "time_embed_dim" (by decide)
  obtain ⟨layers, hlayers⟩ := haccepted.dims "num_layers" (by decide)
  obtain ⟨refiners, hrefiners⟩ := haccepted.dims "num_refiner_layers" (by decide)
  have hq : attentionWidth printable config = .ok (heads * headDim) := by
    have hfit : heads * headDim < 2 ^ 64 := by
      calc heads * headDim ≤ 2 ^ 31 * 2 ^ 31 :=
            Nat.mul_le_mul (Nat.le_of_lt (dim_bounds hheads).2)
            (Nat.le_of_lt (dim_bounds hheadDim).2)
        _ < 2 ^ 64 := by norm_num
    unfold attentionWidth
    rw [hheads, hheadDim]
    exact okOr_eq_ok.mpr (checkedMul_eq_some.mpr ⟨hfit, rfl⟩)
  obtain ⟨trunk, htrunk⟩ := mapM_ok (List.range layers) fun i _ =>
    blockShapes_ok haccepted h (heads * headDim) f t "transformer_blocks" true i
  obtain ⟨refiner, hrefiner⟩ := mapM_ok (List.range refiners) fun i _ =>
    blockShapes_ok haccepted h (heads * headDim) f t "token_refiner.refiner_blocks" false i
  obtain ⟨entries, hentries⟩ := headShapes_ok haccepted h t
  exact ⟨_, bind_eq_ok.mpr ⟨(), hvalid, bind_eq_ok.mpr ⟨h, hh, bind_eq_ok.mpr ⟨heads * headDim, hq,
    bind_eq_ok.mpr ⟨f, hf, bind_eq_ok.mpr ⟨t, ht, bind_eq_ok.mpr ⟨layers, hlayers,
      bind_eq_ok.mpr ⟨refiners, hrefiners, bind_eq_ok.mpr ⟨trunk, htrunk,
        bind_eq_ok.mpr ⟨refiner, hrefiner, bind_eq_ok.mpr ⟨entries, hentries, rfl⟩⟩⟩⟩⟩⟩⟩⟩⟩⟩⟩

/-- A build that stops at an overflow gets past the heads only when the patch input fits. -/
theorem patchFits_of_shapes {names : Shapes} (h : shapes printable trapping config = .ok names) :
    PatchFits printable config := by
  obtain ⟨_, -, h⟩ := bind_eq_ok.mp h
  obtain ⟨_, -, h⟩ := bind_eq_ok.mp h
  obtain ⟨_, -, h⟩ := bind_eq_ok.mp h
  obtain ⟨_, -, h⟩ := bind_eq_ok.mp h
  obtain ⟨_, -, h⟩ := bind_eq_ok.mp h
  obtain ⟨_, -, h⟩ := bind_eq_ok.mp h
  obtain ⟨_, -, h⟩ := bind_eq_ok.mp h
  obtain ⟨_, -, h⟩ := bind_eq_ok.mp h
  obtain ⟨_, -, h⟩ := bind_eq_ok.mp h
  obtain ⟨_, hheads, -⟩ := bind_eq_ok.mp h
  obtain ⟨input, hinput, -⟩ := bind_eq_ok.mp hheads
  obtain ⟨channels, hchannels, hinput⟩ := bind_eq_ok.mp hinput
  obtain ⟨volume, hvolume, hinput⟩ := bind_eq_ok.mp hinput
  intro channels' volume' hchannels' hvolume'
  obtain rfl : channels = channels' := Except.ok.inj (hchannels.symm.trans hchannels')
  obtain rfl : volume = volume' := Except.ok.inj (hvolume.symm.trans hvolume')
  exact (trapping_eq_ok_iff.mp hinput).1

theorem patchFits_of_neverWraps {tableKey : String}
    (hvalid : validate printable wrapping config = .ok ())
    (h : NeverWraps printable tableKey config) : PatchFits printable config := by
  rw [validate_eq fits_wrapping] at hvalid
  obtain ⟨names, hnames⟩ := shapes_ok hvalid
  exact patchFits_of_shapes ((h trapping (Or.inl rfl)).1.trans hnames)

/-- An accepted architecture never wraps exactly when its patch input fits in 64 bits. -/
theorem neverWraps_iff_patchFits (tableKey : String)
    (hvalid : validate printable wrapping config = .ok ()) :
    NeverWraps printable tableKey config ↔ PatchFits printable config := by
  constructor
  · exact patchFits_of_neverWraps hvalid
  · intro hpatch mul hmul
    have hfits : Fits mul := by
      cases hmul with
      | inl htrap => exact htrap ▸ fits_trapping
      | inr hwrap => exact hwrap ▸ fits_wrapping
    exact ⟨shapes_eq hfits hpatch, fun grid rank => prunedShapes_eq hfits hpatch tableKey grid rank,
      fun key layout shape width => nativeOutputs_eq hfits key layout shape width⟩

/-- A small architecture with a patch of the given sides. -/
def smallConfig (channels : Int) (sides : List Int) : Json :=
  .obj ([("_class_name", Json.str "MiniMaxH3Transformer3DModel"), ("in_channels", .int channels),
    ("patch_size", .arr (sides.map .int)), ("attention_head_dim", .int 8)] ++
    ((dimFields ++ floatFields).filter fun field =>
      field ∉ ["in_channels", "attention_head_dim"]).map fun field => (field, Json.int 1))

theorem neverWraps_small :
    validate (fun _ => true) wrapping (smallConfig 24 [1, 2, 2]) = .ok () ∧
      NeverWraps (fun _ => true) "curve" (smallConfig 24 [1, 2, 2]) := by
  have hvalid : validate (fun _ => true) wrapping (smallConfig 24 [1, 2, 2]) = .ok () := by
    decide +kernel
  have hchannels : dim (fun _ => true) (smallConfig 24 [1, 2, 2]) "in_channels" = .ok 24 := by
    decide +kernel
  have hvolume : patchVolume (smallConfig 24 [1, 2, 2]) = .ok 4 := by decide +kernel
  refine ⟨hvalid, (neverWraps_iff_patchFits "curve" hvalid).mpr fun channels volume h h' => ?_⟩
  rw [hchannels] at h
  rw [hvolume] at h'
  cases h
  cases h'
  norm_num

/-- Two channels of a patch of 2^63 points wrap to an input width of zero. -/
theorem wide_patch_wraps :
    validate (fun _ => true) wrapping (smallConfig 2 [1, 1, 2 ^ 63]) = .ok () ∧
      ¬ NeverWraps (fun _ => true) "curve" (smallConfig 2 [1, 1, 2 ^ 63]) ∧
      (shapes (fun _ => true) wrapping (smallConfig 2 [1, 1, 2 ^ 63])).toOption.bind
        (fun names => names.lookup "proj_in.weight") = some [1, 0] := by
  have hvalid : validate (fun _ => true) wrapping (smallConfig 2 [1, 1, 2 ^ 63]) = .ok () := by
    decide +kernel
  refine ⟨hvalid, fun h => ?_, by decide +kernel⟩
  have hfits := patchFits_of_neverWraps hvalid h 2 (2 ^ 63) (by decide +kernel) (by decide +kernel)
  exact absurd hfits (by norm_num)

end Exact

end SceneWorks.H3Codec

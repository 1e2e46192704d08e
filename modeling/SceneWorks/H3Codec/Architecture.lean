import SceneWorks.Library.Debug
import SceneWorks.Library.Fallible
import SceneWorks.Library.JsonIndex
import SceneWorks.Library.Text

/-!
The MiniMax-H3 architecture document and the tensor shapes it asks for. A plain `*` of
the source is a parameter here: a release build wraps it to 64 bits, a debug build stops
at the first product that does not fit, and the exact product is what the author means.
-/

namespace SceneWorks.H3Codec

open Fallible

abbrev Mul := Nat → Nat → Except String Nat

def exact : Mul := fun a b => .ok (a * b)

def wrapping : Mul := fun a b => .ok (a * b % 2 ^ 64)

def trapping : Mul := fun a b =>
  if a * b < 2 ^ 64 then .ok (a * b) else .error "attempt to multiply with overflow"

abbrev Shapes := List (String × List Nat)

/-- Insertion into the map of names. -/
def Shapes.insert (names : Shapes) (entry : String × List Nat) : Shapes :=
  names.filter (·.1 ≠ entry.1) ++ [entry]

variable (printable : Char → Bool) (mul : Mul)

def dim (config : Json) (name : String) : Except String Nat :=
  okOr (((config.get name).bind Json.asU64).filter fun v => 0 < v ∧ v ≤ 2 ^ 31 - 1)
    ("MiniMax-H3 config requires positive integer " ++ Debug.string printable name)

def dimFields : List String :=
  ["num_attention_heads", "attention_head_dim", "hidden_size", "num_layers",
    "num_refiner_layers", "ffn_dim", "in_channels", "audio_in_channels", "text_dim", "freq_dim",
    "time_embed_hidden_dim", "time_embed_dim", "rope_freq_dim"]

def floatFields : List String := ["rope_theta", "norm_eps", "qk_norm_eps", "final_norm_eps"]

def patchSides (config : Json) : Except String (List Json) :=
  okOr (((config.get "patch_size").bind Json.asArray).filter (·.length = 3))
    "MiniMax-H3 patch_size must be three positive integers"

def patchStep (n : Nat) (side : Json) : Except String Nat := do
  let d ← okOr (side.asU64.filter (0 < ·)) "MiniMax-H3 patch_size must be three positive integers"
  okOr (checkedMul n d) "MiniMax-H3 patch_size overflows"

def patchVolume (config : Json) : Except String Nat := do
  let patch ← patchSides config
  patch.foldlM patchStep 1

def checkFloat (config : Json) (field : String) : Except String Unit :=
  if ((config.get field).bind Json.asF64).any fun v => v.isFinite && F64.lt F64.zero v then .ok ()
  else .error ("MiniMax-H3 config requires finite positive " ++ Debug.string printable field)

def checkLayers (config : Json) : Except String Unit := do
  let layers ← dim printable config "num_layers"
  let refiners ← dim printable config "num_refiner_layers"
  if 1024 < layers ∨ 1024 < refiners then
    .error "MiniMax-H3 layer counts exceed supported inventory bounds (1024)"
  else .ok ()

def checkRope (config : Json) : Except String Unit := do
  let rope ← mul 6 (← dim printable config "rope_freq_dim")
  let headDim ← dim printable config "attention_head_dim"
  if headDim < rope then .error "MiniMax-H3 RoPE rotary dimension exceeds attention_head_dim"
  else .ok ()

def checkDims (config : Json) : List String → Except String Unit
  | [] => .ok ()
  | field :: fields => do
      let _ ← dim printable config field
      checkDims config fields

def checkFloats (config : Json) : List String → Except String Unit
  | [] => .ok ()
  | field :: fields => do
      checkFloat printable config field
      checkFloats config fields

def checkKind (config : Json) : Except String Unit :=
  if (config.get "_class_name").bind Json.asStr ≠ some "MiniMaxH3Transformer3DModel" then
    .error "config.json must declare MiniMaxH3Transformer3DModel"
  else if (config.get "quantization").isSome || (config.get "quantization_config").isSome then
    .error ("MiniMax-H3 import requires an architecture config, not a stock packed-tier " ++
      "quantization policy; INT8 execution is declared by per-layer ConvRot operands")
  else .ok ()

def validate (config : Json) : Except String Unit := do
  checkKind config
  checkDims printable config dimFields
  checkLayers printable config
  checkFloats printable config floatFields
  let _ ← patchVolume config
  checkRope printable mul config

/-- The tensors of one block. -/
def blockShapes (config : Json) (h q f t : Nat) (container : String) (modulated : Bool) (i : Nat) :
    Except String Shapes := do
  let name := fun leaf => container ++ "." ++ toString i ++ "." ++ leaf
  let headDim ← dim printable config "attention_head_dim"
  let gate ← mul 2 f
  let plain :=
    [(name "norm1.weight", [h]), (name "norm2.weight", [h]), (name "attn.to_q.weight", [q, h]),
      (name "attn.to_k.weight", [q, h]), (name "attn.to_v.weight", [q, h]),
      (name "attn.to_out.0.weight", [h, q]), (name "attn.norm_q.weight", [headDim]),
      (name "attn.norm_k.weight", [headDim]), (name "ff.net.0.proj.weight", [gate, h]),
      (name "ff.net.2.weight", [h, f])]
  if modulated then
    -- Three modality groups × six modulation parameters.
    let weight ← mul 18 h
    let bias ← mul 18 h
    return plain ++
      [(name "adaln_proj.linear.weight", [weight, t]), (name "adaln_proj.linear.bias", [bias])]
  else
    return plain

def projectionShapes (base : String) (out input : Nat) : Shapes :=
  [(base ++ ".weight", [out, input]), (base ++ ".bias", [out])]

/-- `self.dim("in_channels")? * self.patch_volume()?`. -/
def patchInput (config : Json) : Except String Nat := do
  let channels ← dim printable config "in_channels"
  let volume ← patchVolume config
  mul channels volume

def headShapes (config : Json) (h t : Nat) : Except String Shapes := do
  let patchIn ← patchInput printable mul config
  let audio ← dim printable config "audio_in_channels"
  let text ← dim printable config "text_dim"
  let hidden ← dim printable config "time_embed_hidden_dim"
  let freq ← dim printable config "freq_dim"
  let norm ← mul 2 h
  let patchOut ← patchInput printable mul config
  return projectionShapes "proj_in" h patchIn ++ projectionShapes "audio_proj_in" h audio ++
    projectionShapes "context_embedder" h text ++
    projectionShapes "time_embedder.linear_1" hidden freq ++
    projectionShapes "time_embedder.linear_2" t hidden ++
      projectionShapes "norm_out.linear" norm t ++
    projectionShapes "proj_out" patchOut h ++ projectionShapes "audio_proj_out" audio h

def attentionWidth (config : Json) : Except String Nat := do
  let heads ← dim printable config "num_attention_heads"
  let headDim ← dim printable config "attention_head_dim"
  okOr (checkedMul heads headDim) "H3 attention width overflow"

def shapes (config : Json) : Except String Shapes := do
  validate printable mul config
  let h ← dim printable config "hidden_size"
  let q ← attentionWidth printable config
  let f ← dim printable config "ffn_dim"
  let t ← dim printable config "time_embed_dim"
  let layers ← dim printable config "num_layers"
  let refiners ← dim printable config "num_refiner_layers"
  let trunk ← (List.range layers).mapM
    (blockShapes printable mul config h q f t "transformer_blocks" true)
  let refiner ← (List.range refiners).mapM
    (blockShapes printable mul config h q f t "token_refiner.refiner_blocks" false)
  let heads ← headShapes printable mul config h t
  return (trunk.flatten ++ refiner.flatten ++ [("token_refiner.final_norm.weight", [h])] ++ heads ++
    [("norm_out.norm.weight", [h])]).foldl Shapes.insert []

def timeMlpNames : List String :=
  ["time_embedder.linear_1.weight", "time_embedder.linear_1.bias",
    "time_embedder.linear_2.weight", "time_embedder.linear_2.bias"]

/-- The projections whose input narrows to the rank of the table. -/
def hasReducedInput (name : String) : Bool :=
  name = "norm_out.linear.weight"
    || Text.startsWith "transformer_blocks." name && Text.endsWith ".adaln_proj.linear.weight" name

/-- `tableKey` is the name the format gives the table. -/
def prunedShapes (tableKey : String) (config : Json) (grid rank : Nat) :
    Except String Shapes := do
  if grid < 2 ∨ rank = 0 ∨ 2 ^ 31 - 1 < grid ∨ 2 ^ 31 - 1 < rank ∨ checkedMul grid rank = none then
    .error ("MiniMax-H3 pruned AdaLN requires an F32 table with [grid >= 2, rank > 0], got [" ++
      toString grid ++ ", " ++ toString rank ++ "]")
  else
    let names ← shapes printable mul config
    let kept := names.filter fun entry => !timeMlpNames.contains entry.1
    let narrowed := kept.map fun (name, shape) =>
      (name, if hasReducedInput name then shape.set 1 rank else shape)
    return narrowed.insert (tableKey, [grid, rank])

inductive H3QkvLayout where
  | interleaved
  | contiguous

structure Output where
  name : String
  shape : List Nat
  ranges : List (Nat × Nat)

/-- `str::replace`. -/
def replaceAll (old new : List Char) : Nat → List Char → List Char
  | 0, text => text
  | _ + 1, [] => []
  | fuel + 1, c :: text =>
      if old.isPrefixOf (c :: text) then
        new ++ replaceAll old new fuel ((c :: text).drop old.length)
      else c :: replaceAll old new fuel text

def replace (old new text : String) : String :=
  String.ofList (replaceAll old.toList new.toList (text.length + 1) text.toList)

def normalizedKey (key : String) : String :=
  match Text.stripFront "token_refiner.blocks." key with
  | some rest => "token_refiner.refiner_blocks." ++ rest
  | none =>
      match Text.stripFront "blocks." key with
      | some rest => "transformer_blocks." ++ rest
      | none => key

def headNames : List (String × String) :=
  [("video_patch_proj.", "proj_in."), ("audio_patch_proj.", "audio_proj_in."),
    ("condition_proj.", "context_embedder."), ("time_embedder.proj_in.", "time_embedder.linear_1."),
    ("time_embedder.proj_out.", "time_embedder.linear_2."), ("final_layer.norm.", "norm_out.norm."),
    ("final_layer.adaln_proj.linear.", "norm_out.linear."), ("final_layer.video_out.", "proj_out."),
    ("final_layer.audio_out.", "audio_proj_out.")]

def logicalKey (normalized : String) : String :=
  let logical := replace ".mlp.fc2." ".ff.net.2." (replace ".attn.k_norm." ".attn.norm_k."
    (replace ".attn.q_norm." ".attn.norm_q." (replace ".attn.out_proj." ".attn.to_out.0."
      normalized)))
  (headNames.findSome? fun (raw, canonical) =>
    (Text.stripFront raw logical).map (canonical ++ ·)).getD logical

def shapeText (shape : List Nat) : String := Debug.list toString shape

/-- The byte ranges of one projection of a fused tensor. -/
def qkvRanges (layout : H3QkvLayout) (q row headDim heads j : Nat) :
    Except String (List (Nat × Nat)) :=
  match layout with
  | .contiguous => do
      let start ← mul (← mul j q) row
      let len ← mul q row
      return [(start, len)]
  | .interleaved => (List.range heads).mapM fun h => do
      let group ← mul h 3
      let start ← mul (← mul (group + j) headDim) row
      let len ← mul headDim row
      return (start, len)

def qkvOutput (layout : H3QkvLayout) (base : String) (q hidden row headDim heads : Nat)
    (leaf : String × Nat) : Except String Output := do
  let ranges ← qkvRanges mul layout q row headDim heads leaf.2
  return { name := base ++ ".attn." ++ leaf.1 ++ ".weight", shape := [q, hidden], ranges }

def qkvOutputs (key : String) (config : Json) (layout : H3QkvLayout) (shape : List Nat)
    (width : Nat) (base : String) : Except String (List Output) := do
  let q ← mul (← dim printable config "num_attention_heads")
    (← dim printable config "attention_head_dim")
  let hidden ← dim printable config "hidden_size"
  let fused ← mul 3 q
  if shape ≠ [fused, hidden] then
    .error ("H3 fused QKV " ++ Debug.string printable key ++ " shape " ++ shapeText shape ++
      ", expected [" ++ toString fused ++ ", " ++ toString hidden ++ "]")
  else
    let row ← mul hidden width
    let headDim ← dim printable config "attention_head_dim"
    let heads ← dim printable config "num_attention_heads"
    [("to_q", 0), ("to_k", 1), ("to_v", 2)].mapM
      (qkvOutput mul layout base q hidden row headDim heads)

def gatedOutputs (key : String) (config : Json) (shape : List Nat) (size : Nat) (base : String) :
    Except String (List Output) := do
  let f ← dim printable config "ffn_dim"
  let gate ← mul 2 f
  let hidden ← dim printable config "hidden_size"
  if shape ≠ [gate, hidden] then
    .error ("H3 gated FFN " ++ Debug.string printable key ++ " has shape " ++ shapeText shape ++
      ", expected [" ++ toString gate ++ ", " ++ toString hidden ++ "]")
  else
    return [{ name := base ++ ".ff.net.0.proj.weight", shape,
              ranges := [(size / 2, size / 2), (0, size / 2)] }]

/-- The payload of a tensor in bytes. -/
def payloadSize (width : Nat) (shape : List Nat) : Option Nat := shape.foldlM checkedMul width

def nativeOutputs (key : String) (config : Json) (layout : H3QkvLayout) (shape : List Nat)
    (width : Nat) : Except String (List Output) := do
  let size ← okOr (payloadSize width shape) "H3 tensor size overflow"
  let normalized := normalizedKey key
  match Text.stripBack ".attn.qkv_proj.weight" normalized with
  | some base => qkvOutputs printable mul key config layout shape width base
  | none =>
      match Text.stripBack ".mlp.fc1.weight" normalized with
      | some base => gatedOutputs printable mul key config shape size base
      | none => return [{ name := logicalKey normalized, shape, ranges := [(0, size)] }]

end SceneWorks.H3Codec

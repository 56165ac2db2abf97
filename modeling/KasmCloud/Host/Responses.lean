/-
KasmCloud.Host.Responses — what providers answer
(`crates/host/src/handler.rs`).

The typed interface calls encode a request, call the provider and decode its
response. `decodeProviderResponse` tells the encodings that were ever in use
apart by the first byte alone. `rmp_serde` is not part of the repository: a
type says what value it serializes to (an `i32` to an integer, a `bool` to a
boolean, a list to an array, a record to a map or, without its names, to an
array), and `from_slice` is a parameter that inverts the encoding of it.

`decodesBack_iff` is the law of the two encodings that are read, and
`increment_iff` what becomes of it for a counter.
-/
import KasmCloud.Host.Handler
import KasmCloud.Lib.MessagePack

namespace KasmCloud

open Lib

/-! ## rmp_serde -/

/-- `serde::Serialize`. -/
class Serialize (T : Type) where
  serialize : T → MessagePack.Value

instance serializeInt32 : Serialize Int32 := ⟨fun n => .int n.toInt⟩

instance serializeUnit : Serialize Unit := ⟨fun _ => .nil⟩

/-- The MessagePack encoding of a value. -/
def toVec {T : Type} [Serialize T] (v : T) : Bytes := MessagePack.encode (Serialize.serialize v)

/-- What is relied on of `from_slice`. -/
def Inverts {T : Type} [Serialize T] (fromSlice : Bytes → Except String T) : Prop :=
  ∀ v, fromSlice (toVec v) = .ok v

/-! ## Decoding a response -/

section Decode

variable {T : Type} (fromSlice : Bytes → Except String T)

/-- `decode_provider_response`. -/
def decodeProviderResponse (buf : Bytes) : Except String T :=
  match buf with
  | 0x7f :: _ => .error "CBOR responses are not supported"
  | 0xc1 :: buf => (fromSlice buf).mapError fun _ => "failed to decode response"
  | buf => (fromSlice buf).mapError fun _ => "failed to decode response"

/-- `decode_empty_provider_response`. -/
def decodeEmptyProviderResponse (fromSlice : Bytes → Except String Unit) (buf : Bytes) :
    Except String Unit :=
  if buf = [] then .ok () else decodeProviderResponse fromSlice buf

/-- A response without a marker is decoded as it is. -/
theorem decodeProviderResponse_plain {buf : Bytes} (hcbor : buf.head? ≠ some 0x7f)
    (hunused : buf.head? ≠ some 0xc1) :
    decodeProviderResponse fromSlice buf =
      (fromSlice buf).mapError fun _ => "failed to decode response" := by
  unfold decodeProviderResponse
  split
  · exact absurd rfl hcbor
  · exact absurd rfl hunused
  · rfl

theorem decodeProviderResponse_cbor {buf : Bytes} (h : buf.head? = some 0x7f) :
    decodeProviderResponse fromSlice buf = .error "CBOR responses are not supported" := by
  cases buf with
  | nil => cases h
  | cons b rest =>
    obtain rfl := Option.some.inj h
    rfl

variable [Serialize T]

/-- Encoded with or without the prefix, the value is decoded. -/
def DecodesBack (v : T) : Prop :=
  decodeProviderResponse fromSlice (toVec v) = .ok v ∧
    decodeProviderResponse fromSlice (0xc1 :: toVec v) = .ok v

variable {fromSlice}

theorem decodeProviderResponse_prefixed (hinv : Inverts fromSlice) (v : T) :
    decodeProviderResponse fromSlice (0xc1 :: toVec v) = .ok v := by
  show (fromSlice (toVec v)).mapError _ = _
  rw [hinv v]
  rfl

/-- The encoding of 127 is the marker of the other format. -/
theorem decodeProviderResponse_toVec_127 {v : T} (h : Serialize.serialize v = .int 127) :
    decodeProviderResponse fromSlice (toVec v) = .error "CBOR responses are not supported" :=
  decodeProviderResponse_cbor fromSlice ((MessagePack.head?_encode_eq_seven_f _).mpr h)

theorem decodeProviderResponse_toVec (hinv : Inverts fromSlice) {v : T}
    (h : Serialize.serialize v ≠ .int 127) :
    decodeProviderResponse fromSlice (toVec v) = .ok v := by
  have hcbor : (toVec v).head? ≠ some 0x7f := mt (MessagePack.head?_encode_eq_seven_f _).mp h
  rw [decodeProviderResponse_plain fromSlice hcbor (MessagePack.head?_encode_ne_unused _), hinv v]
  rfl

/-- The integer 127 is what does not survive. -/
theorem decodesBack_iff (hinv : Inverts fromSlice) (v : T) :
    DecodesBack fromSlice v ↔ Serialize.serialize v ≠ .int 127 := by
  rw [DecodesBack, and_iff_left (decodeProviderResponse_prefixed hinv v)]
  constructor
  · intro hok h
    rw [decodeProviderResponse_toVec_127 h] at hok
    cases hok
  · exact decodeProviderResponse_toVec hinv

/-- An empty response may be left out altogether. -/
theorem decodeEmptyProviderResponse_ok {fromSlice : Bytes → Except String Unit}
    (hinv : Inverts fromSlice) {buf : Bytes} (h : buf ∈ [[], toVec (), 0xc1 :: toVec ()]) :
    decodeEmptyProviderResponse fromSlice buf = .ok () := by
  simp only [List.mem_cons, List.not_mem_nil, or_false] at h
  rcases h with rfl | rfl | rfl
  · rfl
  · exact decodeProviderResponse_toVec hinv nofun
  · exact decodeProviderResponse_prefixed hinv ()

end Decode

/-! ## Calling a provider -/

section Threshold

variable (chunkThreshold : Nat)

/-- `Handler::call_operation`, with the encoded request. -/
def Handler.callOperation (handler : Handler) (links : LinkTable)
    (aliases : HashMap String WasmCloudEntity) (target : Option TargetEntity)
    (operation : String) (request : Except String Bytes) : CallProg Bytes := do
  let request ← Prog.lift (request.mapError fun _ => "failed to encode request")
  let res ← (handler.callOperationWithPayload chunkThreshold links aliases target operation
    request).withContext "failed to call target entity"
  Prog.lift (res.mapError fun _ => "call failed")

structure IncrementRequest where
  key : String
  value : Int32

def i32OfU64 (n : UInt64) : Except String Int32 :=
  if n.toNat < 2 ^ 31 then .ok (.ofInt n.toNat) else .error "delta does not fit in `i32`"

def u64OfI32 (n : Int32) : Except String UInt64 :=
  if 0 ≤ n.toInt then .ok (.ofNat n.toInt.toNat) else .error "result does not fit in `u64`"

/-- `Handler::increment`. -/
def Handler.increment (encodeRequest : IncrementRequest → Except String Bytes)
    (fromSlice : Bytes → Except String Int32) (handler : Handler) (links : LinkTable)
    (aliases : HashMap String WasmCloudEntity) (targets : TargetTable) (bucket key : String)
    (delta : UInt64) : CallProg UInt64 :=
  if bucket ≠ "" then Prog.fail "buckets not currently supported"
  else do
    let value ← Prog.lift (i32OfU64 delta)
    let res ← handler.callOperation chunkThreshold links aliases
      (targets.lookup .wasiKeyvalueAtomic) "wasmcloud:keyvalue/KeyValue.Increment"
      (encodeRequest ⟨key, value⟩)
    let new ← Prog.lift (decodeProviderResponse fromSlice res)
    Prog.lift (u64OfI32 new)

variable {chunkThreshold}

/-- A call with a delta that fits is sent, and its response is converted. -/
theorem Handler.increment_eq {encodeRequest : IncrementRequest → Except String Bytes}
    {fromSlice : Bytes → Except String Int32} {handler : Handler} {links : LinkTable}
    {aliases : HashMap String WasmCloudEntity} {targets : TargetTable} {key : String}
    {delta : UInt64} (hdelta : delta.toNat < 2 ^ 31) :
    handler.increment chunkThreshold encodeRequest fromSlice links aliases targets "" key delta =
      (handler.callOperation chunkThreshold links aliases (targets.lookup .wasiKeyvalueAtomic)
        "wasmcloud:keyvalue/KeyValue.Increment" (encodeRequest ⟨key, .ofInt delta.toNat⟩) >>=
        fun res => Prog.lift (decodeProviderResponse fromSlice res >>= u64OfI32)) := by
  unfold Handler.increment
  rw [if_neg (by simp), i32OfU64, if_pos hdelta]
  simp only [Prog.lift_bind]
  rfl

/-- A counter that is not negative is returned as it is. -/
theorem u64OfI32_of_nonneg {n : Int32} (h : 0 ≤ n.toInt) :
    u64OfI32 n = .ok (.ofNat n.toInt.toNat) :=
  if_pos h

/-- The counter that the provider answers with is returned, unless it is 127. -/
theorem Handler.increment_iff {encodeRequest : IncrementRequest → Except String Bytes}
    {fromSlice : Bytes → Except String Int32} {handler : Handler} {links : LinkTable}
    {aliases : HashMap String WasmCloudEntity} {targets : TargetTable} {key : String}
    {delta : UInt64} {n : Int32} {t : List (Prog.Event callInterface)} (hinv : Inverts fromSlice)
    (hdelta : delta.toNat < 2 ^ 31) (hn : 0 ≤ n.toInt)
    (hanswer : (handler.callOperation chunkThreshold links aliases
      (targets.lookup .wasiKeyvalueAtomic) "wasmcloud:keyvalue/KeyValue.Increment"
      (encodeRequest ⟨key, .ofInt delta.toNat⟩)).Exec t (.ok (toVec n))) :
    (handler.increment chunkThreshold encodeRequest fromSlice links aliases targets "" key
      delta).Exec t (.ok (.ofNat n.toInt.toNat)) ↔ n ≠ 127 := by
  rw [Handler.increment_eq hdelta, Prog.exec_bind_lift_iff hanswer]
  have hint : Serialize.serialize n = .int 127 ↔ n = 127 := by
    constructor
    · intro h
      exact Int32.toInt_inj.mp (MessagePack.Value.int.inj h)
    · rintro rfl
      rfl
  rw [ne_eq, ← hint]
  constructor
  · intro hok hn127
    rw [decodeProviderResponse_toVec_127 hn127] at hok
    cases hok
  · intro hne
    rw [decodeProviderResponse_toVec hinv hne]
    exact (u64OfI32_of_nonneg hn).symm

/-- Both encodings of a value are decoded, and a counter is returned, exactly
when the response is not the integer 127. -/
theorem providerResponses_iff {T : Type} [Serialize T] {fromSlice : Bytes → Except String T}
    (hinv : Inverts fromSlice) (v : T) :
    (DecodesBack fromSlice v ↔ Serialize.serialize v ≠ .int 127) ∧
    ∀ {encodeRequest : IncrementRequest → Except String Bytes}
      {fromSlice : Bytes → Except String Int32} {handler : Handler} {links : LinkTable}
      {aliases : HashMap String WasmCloudEntity} {targets : TargetTable} {key : String}
      {delta : UInt64} {n : Int32} {t : List (Prog.Event callInterface)},
      Inverts fromSlice → delta.toNat < 2 ^ 31 → 0 ≤ n.toInt →
      (handler.callOperation chunkThreshold links aliases (targets.lookup .wasiKeyvalueAtomic)
        "wasmcloud:keyvalue/KeyValue.Increment" (encodeRequest ⟨key, .ofInt delta.toNat⟩)).Exec t
          (.ok (toVec n)) →
      ((handler.increment chunkThreshold encodeRequest fromSlice links aliases targets "" key
        delta).Exec t (.ok (.ofNat n.toInt.toNat)) ↔ n ≠ 127) :=
  ⟨decodesBack_iff hinv v, Handler.increment_iff⟩

end Threshold

/-! ## A counter -/

/-- `from_slice` at `i32`. -/
def readInt32 (buf : Bytes) : Except String Int32 :=
  match MessagePack.readInt buf with
  | some n =>
    if -2 ^ 31 ≤ n ∧ n < 2 ^ 31 then .ok (.ofInt n)
    else .error "invalid value: integer out of range"
  | none => .error "invalid type: expected i32"

theorem inverts_readInt32 : Inverts readInt32 := by
  intro n
  have hmin := n.le_toInt
  have hmax := n.toInt_lt
  have hread : MessagePack.readInt (toVec n) = some n.toInt := by
    show MessagePack.readInt (MessagePack.encode (.int n.toInt)) = _
    rw [MessagePack.encode]
    exact MessagePack.readInt_encodeInt (by omega) (by omega)
  rw [readInt32, hread]
  dsimp only
  rw [if_pos ⟨hmin, hmax⟩, Int32.ofInt_toInt]

/-- A handler of an actor with one capability. -/
def clientOf (contractId : String) : Handler where
  latticePrefix := "default"
  claims := ⟨"A", "M", 0, none, none, some ⟨none, some [contractId], false, none, none, none⟩⟩
  origin := ⟨"M", "", ""⟩
  links := 0
  targets := 0

/-- Its link to provider `V`. -/
def linksTo (contractId : String) : LinkTable :=
  AList.insert contractId (AList.insert "default" ⟨"V", "default", contractId⟩ ∅) ∅

/-- Surroundings in which the provider answers with `payload`. -/
def answering (payload : Bytes) : (op : CallOp) → Except String op.Reply
  | .newInvocation .. => .ok ⟨"id", "KeyValue.Increment"⟩
  | .decodeResponse _ => .ok ⟨"id", payload, .ofNat payload.length, none⟩
  | .socketPair | .chunkify .. | .encode _ | .writeReply _ => .ok ()
  | .readRequest | .sendRequest .. | .getUnchunkified _ => .ok []

/-- The call of the provider. -/
def counterRun (n : Int32) : List (Prog.Event callInterface) × Except String Bytes :=
  ((clientOf "wasmcloud:keyvalue").callOperation 1024 (linksTo "wasmcloud:keyvalue") ∅ none
    "wasmcloud:keyvalue/KeyValue.Increment" (.ok [])).follow (answering (toVec n))

/-- The counter 128 is returned, and decoded from both encodings. -/
theorem counter_returned :
    DecodesBack readInt32 128 ∧
      ((clientOf "wasmcloud:keyvalue").increment 1024 (fun _ => .ok []) readInt32
        (linksTo "wasmcloud:keyvalue") ∅ ∅ "" "hits" 1).Exec (counterRun 128).1 (.ok 128) := by
  obtain ⟨hdecodes, hincrement⟩ :=
    @providerResponses_iff 1024 Int32 _ readInt32 inverts_readInt32 128
  have hanswer : (counterRun 128).2 = .ok (toVec (128 : Int32)) := by decide
  have hrun : ((clientOf "wasmcloud:keyvalue").callOperation 1024 (linksTo "wasmcloud:keyvalue") ∅
      none "wasmcloud:keyvalue/KeyValue.Increment" (.ok [])).Exec (counterRun 128).1
      (.ok (toVec (128 : Int32))) :=
    hanswer ▸ Prog.exec_follow (F := callInterface) (answering (toVec (128 : Int32))) _
  exact ⟨hdecodes.mpr (mt MessagePack.Value.int.inj (by decide)),
    (@hincrement (fun _ => .ok []) readInt32 (clientOf "wasmcloud:keyvalue")
      (linksTo "wasmcloud:keyvalue") ∅ ∅ "hits" 1 128 _ inverts_readInt32 (by decide) (by decide)
      hrun).mpr (by decide)⟩

/-- The counter 127 is not. -/
theorem counter_lost :
    ¬ ∀ (T : Type) (_ : Serialize T) (fromSlice : Bytes → Except String T), Inverts fromSlice →
      ∀ v, DecodesBack fromSlice v := by
  intro h
  cases (h Int32 _ readInt32 inverts_readInt32 127).1

end KasmCloud

/-
KasmCloud.Host.Blobstore — responses that come in parts
(`crates/host/src/handler.rs`).

A provider may split an object into chunks, a list of objects into pages, and
ask for a written object in chunks. The three methods of the handler read one
response each. `writeData_ok_iff` and `listObjects_ok_iff` are the checks by
which two of them refuse a part; `getData_whole_iff` says when the third
returns one. The types of the requests and responses have the fields that are
set or read here; `usize` is 64 bits wide, so the length of every vector fits
in `u64`.
-/
import KasmCloud.Host.CallPaths
import KasmCloud.Host.Responses
import KasmCloud.Host.Serving

namespace KasmCloud

open Lib

/-! ## Requests and responses -/

/-- `blobstore::Chunk`. -/
structure Chunk where
  objectId : String
  containerId : String
  bytes : VecU8
  offset : UInt64
  isLast : Bool
  deriving DecidableEq

structure GetObjectRequest where
  objectId : String
  containerId : String
  rangeStart : Option UInt64
  rangeEnd : Option UInt64

structure GetObjectResponse where
  success : Bool
  error : Option String
  initialChunk : Option Chunk

structure PutObjectRequest where
  chunk : Chunk

structure PutObjectResponse where
  streamId : Option String

structure ListObjectsRequest where
  containerId : String
  maxItems : Option UInt32

structure ObjectMetadata where
  objectId : String

structure ListObjectsResponse where
  objects : List ObjectMetadata
  isLast : Bool
  continuation : Option String

/-! ## Reading a response -/

/-- The data of a response to a request for object `name`, and their size. -/
def GetObjectResponse.read (response : GetObjectResponse) (container name : String) :
    Except String (Bytes × UInt64) :=
  match response.success, response.initialChunk, response.error with
  | _, _, some _ => .error "failed to get object response"
  | false, _, none => .error "failed to get object response"
  | true, none, none => .ok ([], 0)
  | true, some chunk, none => do
    ensure (chunk.objectId = name) "Condition failed: `object_id == name`"
    ensure (chunk.containerId = container) "Condition failed: `container_id == container`"
    .ok (chunk.bytes.val, .ofNat chunk.bytes.val.length)

def PutObjectResponse.check (response : PutObjectResponse) : Except String Unit :=
  ensure (response.streamId = none) "provider returned an unexpected stream ID"

def ListObjectsResponse.names (response : ListObjectsResponse) : Except String (List String) := do
  ensure (response.isLast = true) "Condition failed: `is_last`"
  ensure (response.continuation = none) "chunked responses not supported"
  .ok (response.objects.map (·.objectId))

/-! ## The methods -/

section Threshold

variable (chunkThreshold : Nat)

/-- `Handler::get_data`. -/
def Handler.getData (encodeRequest : GetObjectRequest → Except String Bytes)
    (fromSlice : Bytes → Except String GetObjectResponse) (handler : Handler) (links : LinkTable)
    (aliases : HashMap String WasmCloudEntity) (targets : TargetTable) (container name : String)
    (rangeStart rangeEnd : UInt64) : CallProg (Bytes × UInt64) := do
  let res ← handler.callOperation chunkThreshold links aliases
    (targets.lookup .wasiBlobstoreBlobstore) "wasmcloud:blobstore/Blobstore.GetObject"
    (encodeRequest ⟨name, container, some rangeStart, some rangeEnd⟩)
  let response ← Prog.lift (decodeProviderResponse fromSlice res)
  Prog.lift (response.read container name)

/-- `Handler::write_data`, with what reading the value gives. -/
def Handler.writeData (encodeRequest : PutObjectRequest → Except String Bytes)
    (fromSlice : Bytes → Except String PutObjectResponse) (handler : Handler) (links : LinkTable)
    (aliases : HashMap String WasmCloudEntity) (targets : TargetTable) (container name : String)
    (value : Except String VecU8) : CallProg Unit := do
  let bytes ← Prog.lift (value.mapError fun _ => "failed to read bytes")
  let res ← handler.callOperation chunkThreshold links aliases
    (targets.lookup .wasiBlobstoreBlobstore) "wasmcloud:blobstore/Blobstore.PutObject"
    (encodeRequest ⟨⟨name, container, bytes, 0, true⟩⟩)
  let response ← Prog.lift (decodeProviderResponse fromSlice res)
  Prog.lift response.check

/-- `Handler::list_objects`. -/
def Handler.listObjects (encodeRequest : ListObjectsRequest → Except String Bytes)
    (fromSlice : Bytes → Except String ListObjectsResponse) (handler : Handler) (links : LinkTable)
    (aliases : HashMap String WasmCloudEntity) (targets : TargetTable) (container : String) :
    CallProg (List String) := do
  let res ← handler.callOperation chunkThreshold links aliases
    (targets.lookup .wasiBlobstoreBlobstore) "wasmcloud:blobstore/Blobstore.ListObjects"
    (encodeRequest ⟨container, some 0xffffffff⟩)
  let response ← Prog.lift (decodeProviderResponse fromSlice res)
  Prog.lift response.names

end Threshold

/-! ## An answer in chunks -/

/-- What a provider answers to a read: the chunks of the data, the last one
marked. Only the first is in the response. -/
structure ObjectAnswer where
  success : Bool
  error : Option String
  chunks : List Chunk
  marked : ∀ before chunk after, chunks = before ++ chunk :: after →
    (chunk.isLast = true ↔ after = [])

def ObjectAnswer.bytes (answer : ObjectAnswer) : Bytes :=
  answer.chunks.flatMap (·.bytes.val)

def ObjectAnswer.response (answer : ObjectAnswer) : GetObjectResponse :=
  ⟨answer.success, answer.error, answer.chunks.head?⟩

/-- The result is an error, or all the data and their size; and then the
response has no chunk but the last. -/
def ObjectAnswer.Whole (answer : ObjectAnswer) (r : Except String (Bytes × UInt64)) : Prop :=
  ∀ bytes size, r = .ok (bytes, size) →
    bytes = answer.bytes ∧ size.toNat = answer.bytes.length ∧
      ∀ chunk, answer.response.initialChunk = some chunk → chunk.isLast = true

/-- The response is a success, and its chunk is one of the object, but not the
last one. -/
def GetObjectResponse.Partial (response : GetObjectResponse) (container name : String) : Prop :=
  response.success = true ∧ response.error = none ∧
    ∃ chunk, response.initialChunk = some chunk ∧ chunk.objectId = name ∧
      chunk.containerId = container ∧ chunk.isLast = false

/-- What a response has that is read. -/
theorem GetObjectResponse.read_eq_ok {response : GetObjectResponse} {container name : String}
    {data : Bytes × UInt64} :
    response.read container name = .ok data ↔
      response.success = true ∧ response.error = none ∧
        match response.initialChunk with
        | none => ([], 0) = data
        | some chunk => chunk.objectId = name ∧ chunk.containerId = container ∧
            (chunk.bytes.val, .ofNat chunk.bytes.val.length) = data := by
  rcases response with ⟨_ | _, _ | e, _ | chunk⟩ <;> simp [GetObjectResponse.read]

/-- A partial response is read like a whole one. -/
theorem GetObjectResponse.Partial.read_eq {response : GetObjectResponse} {container name : String}
    (h : response.Partial container name) :
    ∃ chunk data, response.initialChunk = some chunk ∧ chunk.isLast = false ∧
      response.read container name = .ok data := by
  obtain ⟨hsuccess, herror, chunk, hchunk, hname, hcontainer, hlast⟩ := h
  refine ⟨chunk, (chunk.bytes.val, .ofNat chunk.bytes.val.length), hchunk, hlast, ?_⟩
  rw [GetObjectResponse.read_eq_ok, hchunk]
  exact ⟨hsuccess, herror, hname, hcontainer, rfl⟩

/-- The chunk of any other response that is read is the last one. -/
theorem GetObjectResponse.isLast_of_read {response : GetObjectResponse} {container name : String}
    {data : Bytes × UInt64} {chunk : Chunk} (hcut : ¬ response.Partial container name)
    (hread : response.read container name = .ok data)
    (hchunk : response.initialChunk = some chunk) : chunk.isLast = true := by
  obtain ⟨hsuccess, herror, hdata⟩ := GetObjectResponse.read_eq_ok.mp hread
  rw [hchunk] at hdata
  by_contra hlast
  exact hcut ⟨hsuccess, herror, chunk, hchunk, hdata.1, hdata.2.1,
    Bool.eq_false_of_not_eq_true hlast⟩

/-- The first chunk is marked exactly when it is all of the answer. -/
theorem ObjectAnswer.isLast_iff {answer : ObjectAnswer} {chunk : Chunk}
    (h : answer.response.initialChunk = some chunk) :
    chunk.isLast = true ↔ answer.chunks = [chunk] := by
  obtain ⟨after, hchunks⟩ := List.head?_eq_some_iff.mp h
  rw [answer.marked [] chunk after hchunks, hchunks]
  simp

/-- What is read is all of the answer, if the first chunk is the last one. -/
theorem ObjectAnswer.bytes_of_read {answer : ObjectAnswer} {container name : String}
    {bytes : Bytes} {size : UInt64} (hread : answer.response.read container name = .ok (bytes, size))
    (hlast : ∀ chunk, answer.response.initialChunk = some chunk → chunk.isLast = true) :
    bytes = answer.bytes ∧ size.toNat = answer.bytes.length := by
  obtain ⟨_, _, hdata⟩ := GetObjectResponse.read_eq_ok.mp hread
  cases hchunk : answer.response.initialChunk with
  | none =>
    rw [hchunk] at hdata
    cases hdata
    have hnone : answer.chunks = [] := List.head?_eq_none_iff.mp hchunk
    simp [ObjectAnswer.bytes, hnone]
  | some chunk =>
    rw [hchunk] at hdata
    cases hdata.2.2
    have hone := (ObjectAnswer.isLast_iff hchunk).mp (hlast chunk hchunk)
    have hlt := chunk.bytes.property
    simp [ObjectAnswer.bytes, hone]
    omega

theorem ObjectAnswer.whole_read_iff (answer : ObjectAnswer) (container name : String) :
    answer.Whole (answer.response.read container name) ↔
      ¬ answer.response.Partial container name := by
  constructor
  · intro hwhole hcut
    obtain ⟨chunk, data, hchunk, hlast, hread⟩ := hcut.read_eq
    have hmarked := (hwhole data.1 data.2 hread).2.2 chunk hchunk
    rw [hlast] at hmarked
    cases hmarked
  · intro hcut bytes size hread
    have hlast (chunk : Chunk) (hchunk : answer.response.initialChunk = some chunk) :
        chunk.isLast = true := GetObjectResponse.isLast_of_read hcut hread hchunk
    obtain ⟨hbytes, hsize⟩ := ObjectAnswer.bytes_of_read hread hlast
    exact ⟨hbytes, hsize, hlast⟩

/-! ## What the methods return -/

section Runs

variable {chunkThreshold : Nat} {handler : Handler} {links : LinkTable}
  {aliases : HashMap String WasmCloudEntity} {targets : TargetTable} {container name : String}
  {buf : Bytes} {t : List (Prog.Event callInterface)}

/-- Whatever a provider answers to a read, the data are returned whole or not at
all, unless the first of several chunks is taken for all of them. -/
theorem Handler.getData_whole_iff {encodeRequest : GetObjectRequest → Except String Bytes}
    {fromSlice : Bytes → Except String GetObjectResponse} {rangeStart rangeEnd : UInt64}
    {answer : ObjectAnswer} {r : Except String (Bytes × UInt64)}
    (hdecode : decodeProviderResponse fromSlice buf = .ok answer.response)
    (hanswer : (handler.callOperation chunkThreshold links aliases
      (targets.lookup .wasiBlobstoreBlobstore) "wasmcloud:blobstore/Blobstore.GetObject"
      (encodeRequest ⟨name, container, some rangeStart, some rangeEnd⟩)).Exec t (.ok buf))
    (hread : (handler.getData chunkThreshold encodeRequest fromSlice links aliases targets
      container name rangeStart rangeEnd).Exec t r) :
    answer.Whole r ↔ ¬ answer.response.Partial container name := by
  simp only [Handler.getData, Prog.lift_bind] at hread
  rw [(Prog.exec_bind_lift_iff hanswer).mp hread, hdecode]
  exact answer.whole_read_iff container name

/-- An object is written only if the provider has taken all of it. -/
theorem Handler.writeData_ok_iff {encodeRequest : PutObjectRequest → Except String Bytes}
    {fromSlice : Bytes → Except String PutObjectResponse} {bytes : VecU8}
    {response : PutObjectResponse}
    (hdecode : decodeProviderResponse fromSlice buf = .ok response)
    (hanswer : (handler.callOperation chunkThreshold links aliases
      (targets.lookup .wasiBlobstoreBlobstore) "wasmcloud:blobstore/Blobstore.PutObject"
      (encodeRequest ⟨⟨name, container, bytes, 0, true⟩⟩)).Exec t (.ok buf)) :
    (handler.writeData chunkThreshold encodeRequest fromSlice links aliases targets container name
      (.ok bytes)).Exec t (.ok ()) ↔ response.streamId = none := by
  have hwrite : handler.writeData chunkThreshold encodeRequest fromSlice links aliases targets
      container name (.ok bytes) = (handler.callOperation chunkThreshold links aliases
        (targets.lookup .wasiBlobstoreBlobstore) "wasmcloud:blobstore/Blobstore.PutObject"
        (encodeRequest ⟨⟨name, container, bytes, 0, true⟩⟩) >>= fun res =>
          Prog.lift (decodeProviderResponse fromSlice res >>= PutObjectResponse.check)) := by
    simp only [← Prog.lift_bind]
    rfl
  rw [hwrite, Prog.exec_bind_lift_iff hanswer, hdecode, eq_comm]
  exact ensure_eq_ok

/-- Objects are listed only if the list is complete. -/
theorem Handler.listObjects_ok_iff {encodeRequest : ListObjectsRequest → Except String Bytes}
    {fromSlice : Bytes → Except String ListObjectsResponse} {response : ListObjectsResponse}
    {names : List String}
    (hdecode : decodeProviderResponse fromSlice buf = .ok response)
    (hanswer : (handler.callOperation chunkThreshold links aliases
      (targets.lookup .wasiBlobstoreBlobstore) "wasmcloud:blobstore/Blobstore.ListObjects"
      (encodeRequest ⟨container, some 0xffffffff⟩)).Exec t (.ok buf)) :
    (handler.listObjects chunkThreshold encodeRequest fromSlice links aliases targets
      container).Exec t (.ok names) ↔
        response.isLast = true ∧ response.continuation = none ∧
          response.objects.map (·.objectId) = names := by
  simp only [Handler.listObjects, Prog.lift_bind]
  rw [Prog.exec_bind_lift_iff hanswer, hdecode, eq_comm]
  show response.names = .ok names ↔ _
  simp [ListObjectsResponse.names]

end Runs

/-! ## An object in one chunk and in two -/

def valueOfChunk (chunk : Chunk) : MessagePack.Value :=
  .array [.str chunk.objectId.toUTF8.data.toList, .str chunk.containerId.toUTF8.data.toList,
    .bin chunk.bytes.val, .int chunk.offset.toNat, .bool chunk.isLast]

/-- Without the names of the fields. -/
instance serializeGetObjectResponse : Serialize GetObjectResponse where
  serialize response := .array [.bool response.success,
    (response.error.map (MessagePack.Value.str ·.toUTF8.data.toList)).getD .nil,
    (response.initialChunk.map valueOfChunk).getD .nil]

/-- `from_slice` on one encoding. -/
def readResponse (response : GetObjectResponse) (buf : Bytes) :
    Except String GetObjectResponse :=
  if buf = toVec response then .ok response else .error "invalid type"

theorem readResponse_toVec (response : GetObjectResponse) :
    decodeProviderResponse (readResponse response) (toVec response) = .ok response := by
  have hhead : (toVec response).head? = some 0x93 := rfl
  rw [decodeProviderResponse_plain _ (by rw [hhead]; decide) (by rw [hhead]; decide), readResponse,
    if_pos rfl]
  rfl

def smallChunk (isLast : Bool) : Chunk :=
  ⟨"o", "c", ⟨[1, 2], by decide⟩, 0, isLast⟩

/-- Some chunks and a last one. -/
def ObjectAnswer.ofChunks (first : List Chunk) (last : Chunk)
    (hfirst : ∀ chunk ∈ first, chunk.isLast = false) (hlast : last.isLast = true) :
    ObjectAnswer where
  success := true
  error := none
  chunks := first ++ [last]
  marked := by
    intro before chunk after h
    rcases List.eq_nil_or_concat after with rfl | ⟨after, _, rfl⟩
    · obtain ⟨_, hchunk⟩ := List.append_inj' h rfl
      cases hchunk
      simp [hlast]
    · rw [List.concat_eq_append, ← List.cons_append, ← List.append_assoc] at h
      obtain ⟨rfl, _⟩ := List.append_inj' h rfl
      simp [hfirst chunk (by simp)]

/-- The object `[1, 2]`. -/
def shortObject : ObjectAnswer :=
  .ofChunks [] (smallChunk true) nofun rfl

/-- An object of three bytes, the last one in a second chunk. -/
def longObject : ObjectAnswer :=
  .ofChunks [smallChunk false] ⟨"o", "c", ⟨[3], by decide⟩, 2, true⟩ (by decide) rfl

/-- The provider is asked for an object. -/
def objectRun (answer : ObjectAnswer) : List (Prog.Event callInterface) × Except String Bytes :=
  ((clientOf "wasmcloud:blobstore").callOperation 1024 (linksTo "wasmcloud:blobstore") ∅ none
    "wasmcloud:blobstore/Blobstore.GetObject" (.ok [])).follow (answering (toVec answer.response))

/-- The method reads the answer. -/
def objectRead (answer : ObjectAnswer) : CallProg (Bytes × UInt64) :=
  (clientOf "wasmcloud:blobstore").getData 1024 (fun _ => .ok []) (readResponse answer.response)
    (linksTo "wasmcloud:blobstore") ∅ ∅ "c" "o" 0 2

/-- The call of the provider returns the encoded answer. -/
theorem objectRun_exec {answer : ObjectAnswer}
    (h : (objectRun answer).2 = .ok (toVec answer.response)) :
    ((clientOf "wasmcloud:blobstore").callOperation 1024 (linksTo "wasmcloud:blobstore") ∅ none
      "wasmcloud:blobstore/Blobstore.GetObject" (.ok [])).Exec (objectRun answer).1
        (.ok (toVec answer.response)) :=
  h ▸ Prog.exec_follow (F := callInterface) (answering (toVec answer.response)) _

/-- So the method returns what it reads in it. -/
theorem objectRead_exec {answer : ObjectAnswer}
    (h : (objectRun answer).2 = .ok (toVec answer.response)) :
    (objectRead answer).Exec (objectRun answer).1 (answer.response.read "c" "o") := by
  simp only [objectRead, Handler.getData, Prog.lift_bind]
  refine (Prog.exec_bind_lift_iff (objectRun_exec h)).mpr ?_
  rw [readResponse_toVec]
  rfl

/-- An object in one chunk is read whole. -/
theorem shortObject_whole : shortObject.Whole (shortObject.response.read "c" "o") := by
  have hrun : (objectRun shortObject).2 = .ok (toVec shortObject.response) := by decide
  refine (Handler.getData_whole_iff (readResponse_toVec _) (objectRun_exec hrun)
    (objectRead_exec hrun)).mpr ?_
  rintro ⟨_, _, chunk, hchunk, _, _, hlast⟩
  cases hchunk
  cases hlast

/-- Two of the three bytes are returned. -/
theorem longObject_cut :
    ¬ ∀ (chunkThreshold : Nat) (encodeRequest : GetObjectRequest → Except String Bytes)
      (fromSlice : Bytes → Except String GetObjectResponse) (handler : Handler)
      (links : LinkTable) (aliases : HashMap String WasmCloudEntity) (targets : TargetTable)
      (container name : String) (rangeStart rangeEnd : UInt64) (answer : ObjectAnswer)
      (buf : Bytes) (t : List (Prog.Event callInterface)) (r : Except String (Bytes × UInt64)),
      decodeProviderResponse fromSlice buf = .ok answer.response →
        (handler.callOperation chunkThreshold links aliases
          (targets.lookup .wasiBlobstoreBlobstore) "wasmcloud:blobstore/Blobstore.GetObject"
          (encodeRequest ⟨name, container, some rangeStart, some rangeEnd⟩)).Exec t (.ok buf) →
        (handler.getData chunkThreshold encodeRequest fromSlice links aliases targets container name
          rangeStart rangeEnd).Exec t r →
        answer.Whole r := by
  intro h
  have hrun : (objectRun longObject).2 = .ok (toVec longObject.response) := by decide
  have hwhole := h 1024 (fun _ => .ok []) (readResponse longObject.response) _ _ ∅ ∅ "c" "o" 0 2
    longObject _ _ _ (readResponse_toVec _) (objectRun_exec hrun) (objectRead_exec hrun)
  cases (hwhole [1, 2] 2 rfl).1

end KasmCloud

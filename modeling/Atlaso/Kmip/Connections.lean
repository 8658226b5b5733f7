import Atlaso.Kmip.TtlvExactness

/-!
The connection loop of `kmip/server.py`, from the bytes of a peer to the bytes of its answers.

The dispatcher is a parameter with a state of its own, and every answer reaches the peer.
-/

namespace Atlaso.Kmip.Connections

open Exceptions Library.ByteWords Library.Outcomes TtlvCodec TtlvExactness

def requestMessage : Nat := 0x420078

/-- What a peer sends until it closes its side, in the pieces that `recv` finds. -/
abbrev Segments := List (List UInt8)

/-- The loop of `_receive_exact`, with the pieces that stay unread. `recv` waits over an
empty piece. -/
def receiveFrom (size : Nat) (result : List UInt8) :
    Segments → Except Raised (List UInt8 × Segments)
  | [] =>
    if size ≤ result.length ∨ result = [] then .ok (result, [])
    else .error (.ttlvError "KMIP connection closed during a message.")
  | segment :: rest =>
    if result.length + segment.length < size then receiveFrom size (result ++ segment) rest
    else
      let missing := size - result.length
      .ok (result ++ segment.take missing, segment.drop missing :: rest)

def receiveExact (size : Nat) (segments : Segments) : Except Raised (List UInt8 × Segments) :=
  receiveFrom size [] segments

def readExact (size : Nat) (stream : List UInt8) : Except Raised (List UInt8 × List UInt8) :=
  if size ≤ stream.length ∨ stream = [] then .ok (stream.take size, stream.drop size)
  else .error (.ttlvError "KMIP connection closed during a message.")

/-- What a connection leaves: its answers, the dispatcher's state, and an exception that
`handle` does not catch. -/
structure Served (State : Type) where
  answers : List (List UInt8)
  state : State
  raised : Option Raised

def uncaught : Raised → Option Raised
  | .ttlvError _ | .osError _ | .protocolFailure _ _ => none
  | raised => some raised

section Handler

variable {Source State : Type} (receive : Nat → Source → Except Raised (List UInt8 × Source))
  (dispatch : State → Ttlv → Except Raised Ttlv × State) (maxRequestBytes : Nat)

/-- The loop body of `handle` before the dispatcher: the next request, or none at the end. -/
def nextRequest (source : Source) : Except Raised (Option (Ttlv × Source)) := do
  let (header, rest) ← receive 8 source
  if header = [] then return none
  else if header.take 3 ≠ toBytesBig 3 requestMessage then
    throw (.ttlvError "KMIP root tag must be Request Message.")
  else if header.getD 3 0 ≠ TtlvType.struct.code then
    throw (.ttlvError "KMIP Request Message must be a structure.")
  else
    let length := fromBytesBig (header.drop 4)
    let paddedLength := length + paddingLength 8 length
    if maxRequestBytes < 8 + paddedLength then
      throw (.ttlvError "KMIP request exceeds the configured maximum size.")
    else do
      let (body, left) ← receive paddedLength rest
      if body.length ≠ paddedLength then throw (.ttlvError "KMIP request is truncated.")
      else do
        let request ← decode (header ++ body)
        return some (request, left)

/-- The loop body from the dispatcher on, with `next` for the passes after it. -/
def respond (state : State) (request : Ttlv) (next : State → Served State) : Served State :=
  match dispatch state request with
  | (.error raised, after) => ⟨[], after, uncaught raised⟩
  | (.ok response, after) =>
    match encode response with
    | .error raised => ⟨[], after, uncaught raised⟩
    | .ok bytes => { next after with answers := bytes :: (next after).answers }

/-- `KmipRequestHandler.handle` of a mapped certificate, for that many passes of its loop. -/
def handle : Nat → State → Source → Served State
  | 0, state, _ => ⟨[], state, none⟩
  | passes + 1, state, source =>
    match nextRequest receive maxRequestBytes source with
    | .error raised => ⟨[], state, uncaught raised⟩
    | .ok none => ⟨[], state, none⟩
    | .ok (some (request, rest)) =>
      respond dispatch state request fun after => handle passes after rest

/-- The service without a wire: it takes one message after the other. -/
def serve : State → List Ttlv → Served State
  | state, [] => ⟨[], state, none⟩
  | state, request :: requests => respond dispatch state request fun after => serve after requests

end Handler

variable {State : Type} {dispatch : State → Ttlv → Except Raised Ttlv × State}
  {maxRequestBytes size : Nat} {result : List UInt8} {segments : Segments} {request : Ttlv}

theorem receive_from_flat (short : result.length ≤ size) :
    (receiveFrom size result segments).map (Prod.map id List.flatten) =
      readExact size (result ++ segments.flatten) := by
  induction segments generalizing result with
  | nil =>
    simp only [receiveFrom, readExact, List.flatten_nil, List.append_nil]
    split_ifs with enough
    · simp [Except.map, List.take_of_length_le short, List.drop_of_length_le short]
    · rfl
  | cons segment rest induction =>
    rw [receiveFrom]
    split_ifs with more
    · rw [induction (by simpa using more.le), List.flatten_cons, List.append_assoc]
    · have enough : size - result.length ≤ segment.length := by omega
      rw [readExact, if_pos (.inl (by simp; omega))]
      simp [Except.map, List.take_append, List.drop_append, List.take_of_length_le short,
        List.drop_of_length_le short, Nat.sub_eq_zero_of_le enough]

theorem next_request_flat (source : Segments) :
    (nextRequest receiveExact maxRequestBytes source).map
        (Option.map (Prod.map id List.flatten)) =
      nextRequest readExact maxRequestBytes source.flatten := by
  have reads (size : Nat) (source : Segments) : readExact size source.flatten =
      (receiveExact size source).map (Prod.map id List.flatten) :=
    (@receive_from_flat size [] source (Nat.zero_le size)).symm
  unfold nextRequest
  rw [reads]
  cases receiveExact 8 source with
  | error raised => rfl
  | ok first =>
    obtain ⟨header, rest⟩ := first
    simp only [Except.map, Prod.map, id, ok_bind]
    split_ifs
    · rfl
    · rfl
    · rfl
    · rfl
    · rw [reads]
      cases receiveExact _ rest with
      | error raised => rfl
      | ok second =>
        obtain ⟨body, left⟩ := second
        simp only [Except.map, Prod.map, id, ok_bind]
        split_ifs
        · rfl
        · cases decode (header ++ body) with
          | error raised => rfl
          | ok request => rfl

/-- A connection is served alike however the network cuts its bytes. -/
theorem handle_flat (passes : Nat) (state : State) (segments : Segments) :
    handle receiveExact dispatch maxRequestBytes passes state segments =
      handle readExact dispatch maxRequestBytes passes state segments.flatten := by
  induction passes generalizing state segments with
  | zero => rfl
  | succ passes induction =>
    rw [handle, handle, ← next_request_flat]
    cases nextRequest receiveExact maxRequestBytes segments with
    | error raised => rfl
    | ok found =>
      cases found with
      | none => rfl
      | some pair =>
        simp only [Except.map, Option.map, Prod.map, induction, id]

/-! ### The requests of a stream -/

/-- A request that a peer may send. -/
structure Request (maxRequestBytes : Nat) (request : Ttlv) : Prop where
  formed : WellFormed request
  tag : request.tag = requestMessage
  struct : request.type = .struct
  length : encodedLength request ≤ maxRequestBytes

def frameHeader (tag : Nat) (type : TtlvType) (length : Nat) : List UInt8 :=
  toBytesBig 3 tag ++ type.code :: toBytesBig 4 length

@[simp] theorem frame_header_length (tag : Nat) (type : TtlvType) (length : Nat) :
    (frameHeader tag type length).length = 8 := by
  simp [frameHeader]

theorem frame_header_fields (tag : Nat) (type : TtlvType) (length : Nat) :
    (frameHeader tag type length).take 3 = toBytesBig 3 tag ∧
      (frameHeader tag type length).getD 3 0 = type.code ∧
        (frameHeader tag type length).drop 4 = toBytesBig 4 length :=
  ⟨rfl, rfl, rfl⟩

theorem encode_framed {data : List UInt8} (encoded : encode request = .ok data) :
    StandardTag request.tag ∧ ∃ value, value.length ≤ maxMessageBytes ∧
      data = frameHeader request.tag.toNat request.type value.length ++
        (value ++ List.replicate (paddingLength 8 value.length) 0) := by
  cases request with
  | tuple tag type children =>
    obtain ⟨standard, -, value, -, bound, rfl⟩ := encode_tuple_ok.mp encoded
    exact ⟨standard, value, bound, by simp [frameHeader, frameBytes, Ttlv.tag, Ttlv.type]⟩
  | scalar tag type raw =>
    obtain ⟨standard, value, -, bound, rfl⟩ := encode_scalar_ok.mp encoded
    exact ⟨standard, value, bound, by simp [frameHeader, frameBytes, Ttlv.tag, Ttlv.type]⟩

theorem read_exact_ok {stream bytes rest : List UInt8} :
    readExact size stream = .ok (bytes, rest) ↔
      (size ≤ stream.length ∨ stream = []) ∧ bytes = stream.take size ∧ rest = stream.drop size := by
  unfold readExact
  split_ifs with found
  · simp [found, eq_comm]
  · simp [found]

/-- What the loop body takes from a stream: the encoding of a request that may be sent, and
no byte more. -/
theorem next_request_iff {stream rest : List UInt8} :
    nextRequest readExact maxRequestBytes stream = .ok (some (request, rest)) ↔
      Request maxRequestBytes request ∧ ∃ data, encode request = .ok data ∧ stream = data ++ rest := by
  constructor
  · intro found
    obtain ⟨⟨header, later⟩, first, found⟩ := bind_ok_iff.mp found
    simp only [ne_eq, pure_is_ok, throw_is_error, ite_not] at found
    split_ifs at found with empty tag struct long
    · simp at found
    obtain ⟨⟨body, left⟩, second, found⟩ := bind_ok_iff.mp found
    simp only at found
    split_ifs at found with whole
    obtain ⟨read, decoded, found⟩ := bind_ok_iff.mp found
    cases found
    obtain ⟨formed, written⟩ := (decode_eq_ok_iff_encode _ _).mp decoded
    obtain ⟨-, taken, dropped⟩ := read_exact_ok.mp second
    have split : later = body ++ rest := by rw [taken, dropped, List.take_append_drop]
    obtain ⟨enough | none, headerTaken, later'⟩ := read_exact_ok.mp first
    · have eight : header.length = 8 := by simpa [headerTaken] using enough
      have total := encode_length request _ written
      obtain ⟨⟨least, most⟩, value, -, framed⟩ := encode_framed written
      obtain ⟨fields, -⟩ := List.append_inj framed (by simpa using eight)
      obtain ⟨tagField, typeField, -⟩ := frame_header_fields request.tag.toNat request.type
        value.length
      refine ⟨⟨formed, ?_, ?_, ?_⟩, _, written, ?_⟩
      · have same := congrArg fromBytesBig (tagField.symm.trans (fields ▸ tag))
        rw [from_bytes_big_to_bytes_big _ _ (by omega),
          from_bytes_big_to_bytes_big _ _ (by decide)] at same
        omega
      · have same := congrArg TtlvType.ofCode (typeField.symm.trans (fields ▸ struct))
        simpa [TtlvType.of_code_code] using same
      · rw [List.length_append, eight, whole] at total
        omega
      · rw [List.append_assoc, ← split, headerTaken, later', List.take_append_drop]
    · simp [headerTaken, none] at empty
  · rintro ⟨allowed, data, written, rfl⟩
    have total := encode_length request _ written
    have decoded := (decode_eq_ok_iff_encode _ _).mpr ⟨allowed.formed, written⟩
    obtain ⟨-, value, bound, rfl⟩ := encode_framed written
    obtain ⟨tagField, typeField, lengthField⟩ := frame_header_fields request.tag.toNat request.type
      value.length
    set header := frameHeader request.tag.toNat request.type value.length with fields
    have eight : header.length = 8 := by simp [fields]
    set body := value ++ List.replicate (paddingLength 8 value.length) 0 with whole
    have bodyLength : body.length = value.length + paddingLength 8 value.length := by simp [whole]
    have first : readExact 8 (header ++ body ++ rest) = .ok (header, body ++ rest) :=
      read_exact_ok.mpr ⟨.inl (by simp [eight]), by simp [← eight], by simp [← eight]⟩
    have second : readExact body.length (body ++ rest) = .ok (body, rest) :=
      read_exact_ok.mpr ⟨.inl (by simp), by simp, by simp⟩
    have present : header ≠ [] := by
      intro empty
      simp [empty] at eight
    have fits : ¬maxRequestBytes < 8 + body.length := by
      rw [List.length_append, eight] at total
      have limit := allowed.length
      omega
    rw [nextRequest, first, ok_bind]
    simp only [tagField, typeField, lengthField, allowed.tag, allowed.struct, Int.toNat_natCast,
      from_bytes_big_to_bytes_big 4 _ (lt_of_le_of_lt bound (by decide)), ← bodyLength, second,
      ok_bind, decoded, ne_eq, not_true_eq_false, if_false, if_neg present, if_neg fits, pure_is_ok]

/-- A connection does what the service does with requests at the front of the stream, each
whole and in its order, whatever the peer sends and however it arrives. -/
theorem connection_serves_requests (passes : Nat) (state : State) (segments : Segments) :
    ∃ requests data tail, encodeAll requests = .ok data ∧ segments.flatten = data ++ tail ∧
      requests.length ≤ passes ∧ (∀ request ∈ requests, Request maxRequestBytes request) ∧
      (handle receiveExact dispatch maxRequestBytes passes state segments).answers =
        (serve dispatch state requests).answers ∧
      (handle receiveExact dispatch maxRequestBytes passes state segments).state =
        (serve dispatch state requests).state := by
  rw [handle_flat]
  generalize segments.flatten = stream
  induction passes generalizing state stream with
  | zero => exact ⟨[], [], stream, rfl, rfl, le_rfl, by simp, rfl, rfl⟩
  | succ passes induction =>
    rw [handle]
    cases taken : nextRequest readExact maxRequestBytes stream with
    | error raised => exact ⟨[], [], stream, rfl, rfl, Nat.zero_le _, by simp, rfl, rfl⟩
    | ok found =>
      rcases found with none | ⟨request, rest⟩
      · exact ⟨[], [], stream, rfl, rfl, Nat.zero_le _, by simp, rfl, rfl⟩
      obtain ⟨allowed, head, written, rfl⟩ := next_request_iff.mp taken
      have alone : encodeAll [request] = .ok head :=
        encode_all_cons_ok.mpr ⟨head, [], written, rfl, by simp⟩
      rcases answered : dispatch state request with ⟨raised | response, after⟩
      · exact ⟨[request], head, rest, alone, rfl, by simp, by simpa using allowed,
          by simp [respond, serve, answered]⟩
      cases sent : encode response with
      | error raised =>
        exact ⟨[request], head, rest, alone, rfl, by simp, by simpa using allowed,
          by simp [respond, serve, answered, sent]⟩
      | ok bytes =>
        obtain ⟨requests, data, tail, all, rfl, within, each, answers, last⟩ :=
          induction after rest
        exact ⟨request :: requests, head ++ data, tail,
          encode_all_cons_ok.mpr ⟨head, data, written, all, rfl⟩, by simp, by simpa using within,
          List.forall_mem_cons.mpr ⟨allowed, each⟩, by simp [respond, serve, answered, sent, answers],
          by simp [respond, serve, answered, sent, last]⟩

/-- Requests that a peer sends one behind the other are all served, up to the limit of the
connection. -/
theorem pipelined_requests_served (passes : Nat) (state : State) {requests : List Ttlv}
    (written : encodeAll requests = .ok segments.flatten)
    (allowed : ∀ request ∈ requests, Request maxRequestBytes request) :
    handle receiveExact dispatch maxRequestBytes passes state segments =
      serve dispatch state (requests.take passes) := by
  rw [handle_flat]
  generalize segments.flatten = stream at written
  induction requests generalizing passes state stream with
  | nil =>
    cases written
    cases passes <;> rfl
  | cons request requests induction =>
    cases passes with
    | zero => rfl
    | succ passes =>
      obtain ⟨head, tail, first, later, rfl⟩ := encode_all_cons_ok.mp written
      rw [List.forall_mem_cons] at allowed
      rw [handle, next_request_iff.mpr ⟨allowed.1, head, first, rfl⟩, List.take_succ_cons, serve]
      simp only [induction _ _ allowed.2 _ later]

def emptyRequest : Ttlv := structure' requestMessage []

/-- Two requests in four pieces, and a dispatcher that echoes and counts. -/
theorem sample_requests_served :
    handle receiveExact (fun count request => (.ok request, count + 1)) 64 128 0
        [[0x42, 0], [0x78, 1, 0, 0, 0, 0, 0x42], [0, 0x78, 1], [0, 0, 0, 0]] =
      ⟨[[0x42, 0, 0x78, 1, 0, 0, 0, 0], [0x42, 0, 0x78, 1, 0, 0, 0, 0]], 2, none⟩ := by
  have values : ValuesFit emptyRequest := ⟨by decide, rfl, by decide, trivial⟩
  have formed : WellFormed emptyRequest := ⟨values, by decide, by decide, by decide⟩
  have sendable : Request 64 emptyRequest := ⟨formed, rfl, rfl, by decide⟩
  have written : encode emptyRequest = .ok [0x42, 0, 0x78, 1, 0, 0, 0, 0] :=
    encode_tuple_ok.mpr ⟨by decide, rfl, [], rfl, by decide, rfl⟩
  have last : encodeAll [emptyRequest] = .ok _ :=
    encode_all_cons_ok.mpr ⟨_, [], written, rfl, rfl⟩
  refine (pipelined_requests_served 128 0 (encode_all_cons_ok.mpr ⟨_, _, written, last, rfl⟩)
    (List.forall_mem_cons.mpr ⟨sendable, by simpa using sendable⟩)).trans ?_
  simp [serve, respond, written]

end Atlaso.Kmip.Connections

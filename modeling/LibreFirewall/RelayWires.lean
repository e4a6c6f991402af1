import LibreFirewall.NetHeaders

/-!
# The relay's two regions and its network end

`wire/src/relay.rs`. The network end writes one item into the request region and the
terminating end answers it in the reply region; the two are told apart by a sequence number
that only the network end moves. Everything read out of the reply region is the far end's
to choose, so each word is decoded before it is believed, and a word that cannot be decoded
consumes the item it answered.
-/

namespace LibreFirewall.RelayWires

open NetHeaders (Octet)
open BitVec (ofNat toNat_ofNat)

/-! ### The vocabulary -/

/-- Bytes of opaque record data one item may carry, in either direction. -/
def maxRelayPayload : ℕ := 16648

inductive DownloadSink where
  | log
  | capture
deriving DecidableEq

namespace DownloadSink

def count : ℕ := 2

def toBits : DownloadSink → BitVec 32
  | log => 0
  | capture => 1

def fromBits (bits : BitVec 32) : Option DownloadSink :=
  if bits = 0 then some log else if bits = 1 then some capture else none

end DownloadSink

/-- How far the peer says it has durably taken each recording. -/
structure Acknowledged where
  log : BitVec 64
  capture : BitVec 64

/-- The position named for one recording. -/
def Acknowledged.of (acked : Acknowledged) : DownloadSink → ℕ
  | .log => acked.log.toNat
  | .capture => acked.capture.toNat

/-- How a session ended at the network end. -/
inductive RelayEnding where
  | peer
  | consumer
  | forgotten
  | refused
deriving DecidableEq

namespace RelayEnding

def count : ℕ := 4

def toBits : RelayEnding → BitVec 32
  | peer => 0
  | consumer => 1
  | forgotten => 2
  | refused => 3

def fromBits (bits : BitVec 32) : Option RelayEnding :=
  if bits = 0 then some peer
  else if bits = 1 then some consumer
  else if bits = 2 then some forgotten
  else if bits = 3 then some refused
  else none

end RelayEnding

/-- Which connection a session runs on. -/
inductive Half where
  | onboarding
  | channel
deriving DecidableEq

/-- How reading an extent off the medium went. -/
inductive RangeOutcome where
  | data
  | overwritten
  | mediumRefused
deriving DecidableEq

namespace RangeOutcome

def toBits : RangeOutcome → BitVec 32
  | data => 0
  | overwritten => 1
  | mediumRefused => 2

def fromBits (bits : BitVec 32) : Option RangeOutcome :=
  if bits = 0 then some data
  else if bits = 1 then some overwritten
  else if bits = 2 then some mediumRefused
  else none

/-- An outcome that ends the answer carries no bytes. -/
def endsTheAnswer (outcome : RangeOutcome) : Bool := outcome ≠ data

end RangeOutcome

/-- An extent of one recording the terminating end is waiting for. -/
structure RangeWant where
  recording : DownloadSink
  start : ℕ
  length : ℕ

/-- What a request asks the terminating end to do with the connection. -/
inductive RelayOperation where
  | «open» (half : Half)
  | deliver
  | poll
  | close (ending : RelayEnding)
  | ship (recording : DownloadSink)
  | range (outcome : RangeOutcome)
deriving DecidableEq

namespace RelayOperation

/-- The words before a close's own encoding: an open per half, a deliver, a poll. -/
def closeBase : BitVec 32 := 4

def shipBase : BitVec 32 := closeBase+ofNat 32 RelayEnding.count

def rangeBase : BitVec 32 := shipBase+ofNat 32 DownloadSink.count

def toBits : RelayOperation → BitVec 32
  | .open .onboarding => 0
  | .open .channel => 1
  | deliver => 2
  | poll => 3
  | close ending => closeBase+ending.toBits
  | ship recording => shipBase+recording.toBits
  | range outcome => rangeBase+outcome.toBits

def fromBits (bits : BitVec 32) : Option RelayOperation :=
  if bits = 0 then some (.open .onboarding)
  else if bits = 1 then some (.open .channel)
  else if bits = 2 then some deliver
  else if bits = 3 then some poll
  else match RelayEnding.fromBits (bits - closeBase) with
    | some ending => some (close ending)
    | none => match DownloadSink.fromBits (bits - shipBase) with
      | some recording => some (ship recording)
      | none => (RangeOutcome.fromBits (bits - rangeBase)).map range

/-- Every operation is read back as itself: the three bases leave each group its own words. -/
theorem fromBits_toBits (o : RelayOperation) : fromBits o.toBits = some o := by
  cases o with
  | «open» half => cases half <;> rfl
  | deliver => rfl
  | poll => rfl
  | close e => cases e <;> rfl
  | ship r => cases r <;> rfl
  | range ot => cases ot <;> rfl

theorem toBits_injective : Function.Injective toBits := by
  intro first s h
  have hr := congrArg fromBits h
  rw [fromBits_toBits,fromBits_toBits] at hr
  exact Option.some.inj hr

end RelayOperation

/-- The status word of a reply. -/
inductive RelayStatus where
  | ok
  | noConnection
  | payloadTooLong
  | noSuchOperation
  | sessionFailed

def RelayStatus.fromBits (bits : BitVec 32) : Option RelayStatus :=
  if bits = 0 then some ok
  else if bits = 1 then some noConnection
  else if bits = 2 then some payloadTooLong
  else if bits = 3 then some noSuchOperation
  else if bits = 4 then some sessionFailed
  else none

/-- A status without its success. -/
inductive RelayRefusal where
  | noConnection
  | payloadTooLong
  | noSuchOperation
  | sessionFailed

def RelayRefusal.fromStatus : RelayStatus → Option RelayRefusal
  | .ok => none
  | .noConnection => some noConnection
  | .payloadTooLong => some payloadTooLong
  | .noSuchOperation => some noSuchOperation
  | .sessionFailed => some sessionFailed

/-- The recording a reply waits for an extent of. Zero is nothing wanted, so a recording's
word is one past its own. -/
def rangeWanting (bits : BitVec 32) : Option (Option DownloadSink) :=
  if bits = 0 then some none else (DownloadSink.fromBits (bits - 1)).map some

/-! ### The regions -/

/-- The request region. -/
structure RelayRequest where
  sequence : BitVec 32
  operation : BitVec 32
  len : BitVec 32
  position : ℕ
  payload : List Octet
  payload_length : payload.length = maxRelayPayload

/-- The reply region. Whatever it holds was written by the terminating end. -/
structure RelayReply where
  sequence : BitVec 32
  status : BitVec 32
  operation : BitVec 32
  len : BitVec 32
  answered : BitVec 64
  closed : BitVec 32
  agreed : BitVec 32
  ackedLog : BitVec 64
  ackedCapture : BitVec 64
  wanted : BitVec 32
  wantedStart : BitVec 64
  wantedLength : BitVec 64
  payload : List Octet
  payload_length : payload.length = maxRelayPayload

def RelayRequest.zero : RelayRequest :=
  ⟨0,0,0,0,List.replicate maxRelayPayload 0,List.length_replicate⟩

def RelayReply.zero : RelayReply :=
  ⟨0,0,0,0,0,0,0,0,0,0,0,0,List.replicate maxRelayPayload 0,List.length_replicate⟩

/-- The payload cells with `bytes` stored from the first on. What does not fit is dropped,
and cells past the bytes keep what an older item left there. -/
def overwrite (cells bytes : List Octet) : List Octet :=
  bytes.take cells.length++cells.drop bytes.length

theorem length_overwrite (cs bs : List Octet) : (overwrite cs bs).length = cs.length := by
  rw [overwrite,List.length_append,List.length_take,List.length_drop]
  omega

theorem take_overwrite {cs bs : List Octet} (h : bs.length ≤ cs.length) :
    (overwrite cs bs).take bs.length = bs := by
  rw [overwrite,List.take_of_length_le h,List.take_left]

/-- The length word a payload is stored under. -/
def clampU32 (len : ℕ) : BitVec 32 := ofNat 32 (min len (2^32 - 1))

/-- The bytes an item carries, as the terminating end reads them out of the region. -/
def RelayRequest.bytes (request : RelayRequest) : List Octet :=
  request.payload.take request.len.toNat

/-! ### The network end -/

/-- An item the requester has issued and not yet had answered. -/
structure PendingRelay where
  sequence : BitVec 32
  operation : RelayOperation

/-- A reply the responder's bytes cannot be. -/
inductive RelayFault where
  | statusUnknown (status : BitVec 32)
  | operationUnknown (operation : BitVec 32)
  | wrongOperation (asked answered : RelayOperation)
  | lenPastPayload (len : BitVec 32)
  | bytesOnRefusal (status : RelayStatus) (len : BitVec 32)
  | closedUnknown (closed : BitVec 32)
  | agreedUnknown (agreed : BitVec 32)
  | wantUnknown (wanted : BitVec 32)

/-- What one look at the reply found. -/
inductive RelayPoll where
  | outstanding (pending : PendingRelay)
  | answered (records : List Octet) (closed agreed : Bool) (answered : BitVec 64)
      (acked : Acknowledged) (wanted : Option RangeWant)
  | refused (reason : RelayRefusal)
  | faulted (fault : RelayFault)

/-- A word that is one of two values. -/
def flag (word : BitVec 32) : Option Bool :=
  if word = 0 then some false else if word = 1 then some true else none

/-- What the reply region says about `pending`. A refusal is read before the operation it
echoes: one refusal exists because the operation could not be read. -/
def RelayReply.answer (reply : RelayReply) (pending : PendingRelay) : RelayPoll :=
  if reply.sequence ≠ pending.sequence then .outstanding pending
  else match RelayStatus.fromBits reply.status with
    | none => .faulted (.statusUnknown reply.status)
    | some status => match RelayRefusal.fromStatus status with
      | some reason =>
        if reply.len ≠ 0 then .faulted (.bytesOnRefusal status reply.len) else .refused reason
      | none => match RelayOperation.fromBits reply.operation with
        | none => .faulted (.operationUnknown reply.operation)
        | some answered =>
          if answered ≠ pending.operation then
            .faulted (.wrongOperation pending.operation answered)
          else if maxRelayPayload < reply.len.toNat then .faulted (.lenPastPayload reply.len)
          else match flag reply.closed with
            | none => .faulted (.closedUnknown reply.closed)
            | some closed => match flag reply.agreed with
              | none => .faulted (.agreedUnknown reply.agreed)
              | some agreed => match rangeWanting reply.wanted with
                | none => .faulted (.wantUnknown reply.wanted)
                | some recording =>
                  .answered (reply.payload.take reply.len.toNat) closed agreed reply.answered
                    ⟨reply.ackedLog,reply.ackedCapture⟩
                    (recording.map fun sink =>
                      ⟨sink,reply.wantedStart.toNat,reply.wantedLength.toNat⟩)

theorem RelayReply.answer_answered {r : RelayReply} {p : PendingRelay}
    {rs : List Octet} {c a : Bool} {cn : BitVec 64} {ac : Acknowledged}
    {w : Option RangeWant}
    (h : r.answer p = .answered rs c a cn ac w) :
    r.sequence = p.sequence ∧ rs <+: r.payload := by
  unfold RelayReply.answer at h
  by_cases hs : r.sequence = p.sequence
  · refine ⟨hs,?_⟩
    repeat' split at h
    all_goals cases h
    exact List.take_prefix _ _
  · rw [if_pos hs] at h
    cases h

/-- The network end, with its own sequence, window and fault tally. -/
structure RelayRequester where
  request : RelayRequest
  sequence : BitVec 32
  outstanding : Bool
  faults : ℕ

namespace RelayRequester

def attach (request : RelayRequest) : RelayRequester := ⟨request,0,false,0⟩

/-- The number after `sequence`. Zero is no request, so it is stepped over. -/
def next (sequence : BitVec 32) : BitVec 32 := if sequence+1 = 0 then 1 else sequence+1

/-- Write an item and take the window; `none` where the window is taken already. -/
def issue (requester : RelayRequester) (operation : RelayOperation) (position : ℕ)
    (payload : List Octet) : Option (PendingRelay × RelayRequester) :=
  if requester.outstanding then none
  else
    some (⟨next requester.sequence,operation⟩,
      { requester with
        request := ⟨next requester.sequence,operation.toBits,clampU32 payload.length,position,
          overwrite requester.request.payload payload,
          (length_overwrite _ _).trans requester.request.payload_length⟩
        sequence := next requester.sequence
        outstanding := true })

def ask (requester : RelayRequester) (operation : RelayOperation) (payload : List Octet) :
    Option (PendingRelay × RelayRequester) :=
  requester.issue operation 0 payload

def ship (requester : RelayRequester) (recording : DownloadSink) (position : ℕ)
    (bytes : List Octet) : Option (PendingRelay × RelayRequester) :=
  requester.issue (.ship recording) position bytes

def range (requester : RelayRequester) (outcome : RangeOutcome) (position : ℕ)
    (bytes : List Octet) : Option (PendingRelay × RelayRequester) :=
  requester.issue (.range outcome) position (if outcome.endsTheAnswer then [] else bytes)

/-- The requester once it has looked. Any answer to the item frees the window. -/
def looked (requester : RelayRequester) : RelayPoll → RelayRequester
  | .outstanding _ => requester
  | .faulted _ =>
    { requester with outstanding := false, faults := min (requester.faults+1) (2^32 - 1) }
  | _ => { requester with outstanding := false }

/-- Give up on an item without an answer. The sequence does not move. -/
def abandon (requester : RelayRequester) : RelayRequester :=
  { requester with outstanding := false }

/-- What writing an item leaves: the handle, and the region the far end reads it out of. -/
structure Wrote (requester : RelayRequester) (operation : RelayOperation) (payload : List Octet)
    (issued : PendingRelay × RelayRequester) : Prop where
  free : requester.outstanding = false
  pending : issued.1 = ⟨next requester.sequence,operation⟩
  sequence : issued.2.sequence = next requester.sequence
  outstanding : issued.2.outstanding
  number : issued.2.request.sequence = next requester.sequence
  operation : issued.2.request.operation = operation.toBits
  bytes : payload.length ≤ maxRelayPayload → issued.2.request.bytes = payload

theorem toNat_clampU32 {len : ℕ} (h : len ≤ maxRelayPayload) : (clampU32 len).toNat = len := by
  rw [clampU32,toNat_ofNat,Nat.mod_eq_of_lt]
  all_goals
    have : maxRelayPayload = 16648 := rfl
    omega

theorem issue_wrote {r : RelayRequester} {o : RelayOperation} {p : ℕ}
    {py : List Octet} {i : PendingRelay × RelayRequester}
    (h : r.issue o p py = some i) :
    Wrote r o py i := by
  rw [issue] at h
  cases hf : r.outstanding with
  | true => simp [hf] at h
  | false =>
    simp only [hf,Bool.false_eq_true,if_false,Option.some.injEq] at h
    subst h
    refine ⟨hf,rfl,rfl,rfl,rfl,rfl,fun hl => ?_⟩
    rw [RelayRequest.bytes,toNat_clampU32 hl]
    exact take_overwrite (r.request.payload_length ▸ hl)

theorem issue_position {r : RelayRequester} {o : RelayOperation} {p : ℕ}
    {py : List Octet} {i : PendingRelay × RelayRequester}
    (h : r.issue o p py = some i) :
    i.2.request.position = p := by
  rw [issue] at h
  split_ifs at h
  exact Option.some.inj h ▸ rfl

/-! ### Numbers of items -/

/-- The number an item bears that follows `issued` others. It comes round again after all the
nonzero words have been used. -/
def numbered (issued : ℕ) : BitVec 32 := ofNat 32 (issued % (2^32 - 1)+1)

theorem next_zero : next 0 = numbered 0 := by decide

theorem next_numbered (i : ℕ) : next (numbered i) = numbered (i+1) := by
  have hlt : i % (2^32 - 1) < 2^32 - 1 := Nat.mod_lt _ (by decide)
  have ho : (1 : BitVec 32).toNat = 1 := rfl
  have hz : (0 : BitVec 32).toNat = 0 := rfl
  rw [next,numbered,numbered]
  by_cases hl : i % (2^32 - 1)+1 = 2^32 - 1
  · have hr : (i+1) % (2^32 - 1) = 0 := by omega
    rw [hl,hr]
    decide
  · have hs : (i+1) % (2^32 - 1) = i % (2^32 - 1)+1 := by omega
    have hne : ofNat 32 (i % (2^32 - 1)+1)+1 ≠ 0 := by
      intro h
      have hn := congrArg BitVec.toNat h
      simp only [BitVec.toNat_add,toNat_ofNat,ho,hz] at hn
      omega
    rw [if_neg hne,hs]
    apply BitVec.eq_of_toNat_eq
    simp only [BitVec.toNat_add,toNat_ofNat,ho]
    omega

/-- Two items that bear one number are a whole round apart. -/
theorem numbered_apart {first s : ℕ} (hl : first < s)
    (h : numbered first = numbered s) : first+(2^32 - 1) ≤ s := by
  have hn := congrArg BitVec.toNat h
  simp only [numbered,toNat_ofNat] at hn
  omega

end RelayRequester

end LibreFirewall.RelayWires

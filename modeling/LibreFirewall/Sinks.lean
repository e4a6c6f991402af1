import LibreFirewall.PcapngBlocks
import LibreFirewall.Superblocks
import LibreFirewall.TapRecords

/-!
# Recording sinks

One recording sink, from `recorder/src/lib.rs`: pcapng blocks composed into a staging
buffer, whole sectors of it handed over as flushes, and the three cursors that say what was
appended, what the device has taken and what a reader has had. A sink is given its staging
buffer by each call, so every operation returns it.

Offsets within a buffer or a segment are plain numbers: no buffer is longer than a machine
word counts. Positions in a recording's append space saturate, as the source's do.
-/

namespace LibreFirewall.CaptureRings

open Superblocks

/-- A ring at the cursor and generation a superblock carried. -/
def Ring.resume (checked : RingState) (prologueLen : ℕ) : Ring where
  geometry := checked.geometry
  prologueLen := prologueLen
  cursor := checked.writer
  writeGeneration := checked.writeGeneration
  counters := {}

/-- The next superblock's state, under a generation one past the last. -/
def Ring.checkpoint (self : Ring) (writer : Cursor) (readers : List ReaderCursor) :
    Except RingStateError RingState × Ring :=
  let generation := satSucc self.writeGeneration
  match RingState.new self.geometry generation writer readers with
  | .error error => (.error error,self)
  | .ok state => (.ok state,{ self with writeGeneration := generation })

end LibreFirewall.CaptureRings

namespace LibreFirewall.Sinks

open ByteLayouts CaptureRings Superblocks
open NetHeaders (Octet)
open PcapngBlocks (EncodeError Frame SectionHeader InterfaceDescription EnhancedPacket CustomBinary
  usizeMax)
open TapRecords

def maxInterfaces : ℕ := 8

def maxInterfaceName : ℕ := 16

/-- Bytes held back at the end of every segment for a seal's padding block. -/
def tailReserve : ℕ := 2*sectorSize

def annotationVersion : Octet := 3

def flagsInbound : BitVec 32 := 1

def flagsOutbound : BitVec 32 := 2

def verdictKind : Octet := 0xFF

def linkTypeEthernet : BitVec 16 := 1

def channelReaderId : BitVec 32 := 1

/-- An interface's identifier, as the bytes of the text it is given out as. -/
structure InterfaceName where
  text : List Octet
  length_le : text.length ≤ maxInterfaceName

def InterfaceName.empty : InterfaceName := ⟨[],Nat.zero_le _⟩

structure SinkConfig where
  geometry : Geometry
  snapLen : BitVec 32
  interfaces : Vector InterfaceName maxInterfaces
  interfaceCount : ℕ

inductive SinkError where
  | tooManyInterfaces (count : ℕ)
  | prologueTooLong (prologue segment : ℕ)
  | encode (error : EncodeError)
  | state (error : RingStateError)
deriving DecidableEq

inductive Recorded where
  | placed (bytes : ℕ)
  | segmentFull
  | oversized (needed : ℕ)
  | stagingFull (needed free : ℕ)
  | refused (error : EncodeError)

/-- Whole sectors from the front of staging that the device must be given. -/
structure Flush where
  sector : ℕ
  len : ℕ

structure Span where
  sector : ℕ
  skip : ℕ
  len : ℕ

inductive Locate where
  | live (span : Span)
  | pastEnd
  | overrun

structure SinkCounters where
  records : ℕ := 0
  recordBytes : ℕ := 0
  droppedOversized : ℕ := 0
  stagingDeferrals : ℕ := 0
  droppedRefused : ℕ := 0
  segmentsClosed : ℕ := 0
  wraps : ℕ := 0
  sectorsWritten : ℕ := 0
  paddingBytes : ℕ := 0

structure Sink where
  ring : Ring
  snapLen : BitVec 32
  interfaces : Vector InterfaceName maxInterfaces
  interfaceCount : ℕ
  /-- The segment the staging buffer's bytes belong to. -/
  stagedSequence : BitVec 64
  /-- The offset in that segment of the staging buffer's first byte. -/
  stagedFrom : ℕ
  stagedLen : ℕ
  /-- Everything the device has acknowledged. -/
  durable : Cursor
  reader : Option Cursor
  superblockStale : Bool
  flushing : Bool
  /-- Tap drops to state with the next record. -/
  pendingDrops : BitVec 64
  counters : SinkCounters

/-- `librefirewall` -/
def osText : List Octet :=
  [0x6c,0x69,0x62,0x72,0x65,0x66,0x69,0x72,0x65,0x77,0x61,0x6c,0x6c]

/-- `librefirewall recorder` -/
def applicationText : List Octet :=
  osText++[0x20,0x72,0x65,0x63,0x6f,0x72,0x64,0x65,0x72]

def prologueHeader : SectionHeader where
  hardware := none
  os := some osText
  application := some applicationText
  schema := some ⟨PcapngBlocks.unregisteredPen,[annotationVersion,0,0,0]⟩

def interfaceDescription (snapLen : BitVec 32) (name : InterfaceName) : InterfaceDescription where
  linkType := linkTypeEthernet
  snapLen := snapLen
  name := some name.text
  description := none
  speed := none
  timestampResolution := .microseconds

/-- The blocks every segment opens with: a section header and each interface. -/
def prologueFrames (snapLen : BitVec 32) (interfaces : Vector InterfaceName maxInterfaces)
    (interfaceCount : ℕ) : List (Except EncodeError Frame) :=
  PcapngBlocks.sectionHeaderFrame prologueHeader ::
    (List.range interfaceCount).map fun index =>
      PcapngBlocks.interfaceDescriptionFrame
        (interfaceDescription snapLen (interfaces[index]?.getD .empty))

def SinkConfig.frames (config : SinkConfig) : List (Except EncodeError Frame) :=
  prologueFrames config.snapLen config.interfaces config.interfaceCount

def measurePrologue (segment : ℕ) : ℕ → List (Except EncodeError Frame) → Except SinkError ℕ
  | total, [] => .ok total
  | total, frame::frames =>
    match PcapngBlocks.frameLen frame with
    | .error error => .error (.encode error)
    | .ok len =>
      if usizeMax < total+len then .error (.prologueTooLong usizeMax segment)
      else measurePrologue segment (total+len) frames

def prologueLen (config : SinkConfig) : Except SinkError ℕ :=
  if maxInterfaces < config.interfaceCount then
    .error (.tooManyInterfaces config.interfaceCount)
  else measurePrologue config.geometry.segmentBytes 0 config.frames

def payloadFits (prologue segmentBytes : ℕ) : Bool :=
  prologue+tailReserve ≤ usizeMax ∧ prologue+tailReserve < segmentBytes

/-- The part of a buffer between two offsets, empty where they name none. -/
def window (staging : List Octet) (start stop : ℕ) : List Octet :=
  if start ≤ stop ∧ stop ≤ staging.length then field staging start (stop - start) else []

/-- A block written between two offsets of a buffer. -/
def writeAt (staging : List Octet) (start stop : ℕ) (frame : Except EncodeError Frame) :
    Except EncodeError ℕ × List Octet :=
  let wrote := PcapngBlocks.writeFrame (window staging start stop) frame
  (wrote.1,staging.take start++(wrote.2++staging.drop (start+wrote.2.length)))

/-- Blocks written one behind another, each into all the room that is left. -/
def writeFrames (start : ℕ) : List Octet → ℕ → List (Except EncodeError Frame) →
    Except EncodeError ℕ × List Octet
  | staging, written, [] => (.ok written,staging)
  | staging, written, frame::frames =>
    match writeAt staging (start+written) staging.length frame with
    | (.error error,staging) => (.error error,staging)
    | (.ok len,staging) => writeFrames start staging (written+len) frames

def annotationVerdict (tap : CheckedTap) : Octet :=
  match tap.outcome with
  | .forwarded => 0
  | .dropped _ => 1
  | .revoked => 2

/-- The firewall's own state, as the bytes a record's custom option carries. A rule is
stored one higher than its position, and zero names nothing. -/
def annotation (tap : CheckedTap) : List Octet :=
  [annotationVersion,annotationVerdict tap,
    (match tap.outcome with
      | .dropped reason => reason.toBits
      | _ => 0),
    tap.interfaceId,
    (match tap.direction with
      | some .outbound => 1
      | _ => 0),
    (match tap.flow.bind TapFlow.classification with
      | some classification => classification.toBits
      | none => 0),
    (match tap.event with
      | some event => event.toBits
      | none => 0),
    (match tap.flow with
      | some flow => flow.state.toBits
      | none => 0)] ++
  (toLe 4 tap.generation.toNat ++
  (toLe 4 (match tap.flow with
    | some flow => flow.slot.toNat
    | none => 0) ++
  (toLe 4 (match tap.flow with
    | some flow => flow.generation.toNat
    | none => 0) ++
  (toLe 2 (match tap.rule with
    | some position => min (position.toNat+1) (2^16 - 1)
    | none => 0)++[0,0]))))

namespace Sink

def prologueFrames (self : Sink) : List (Except EncodeError Frame) :=
  Sinks.prologueFrames self.snapLen self.interfaces self.interfaceCount

/-- The prologue goes behind whatever is staged. -/
def writePrologue (self : Sink) (staging : List Octet) :
    Except EncodeError ℕ × Sink × List Octet :=
  match writeFrames self.stagedLen staging 0 self.prologueFrames with
  | (.error error,staging) => (.error error,self,staging)
  | (.ok written,staging) =>
    (.ok written,{ self with stagedLen := self.stagedLen+written },staging)

/-- A sink over a fresh extent, before its prologue is written. -/
def fresh (config : SinkConfig) (prologue : ℕ) : Sink where
  ring := Ring.new config.geometry prologue
  snapLen := config.snapLen
  interfaces := config.interfaces
  interfaceCount := config.interfaceCount
  stagedSequence := 0
  stagedFrom := 0
  stagedLen := 0
  durable := ⟨0,0⟩
  reader := none
  superblockStale := true
  flushing := false
  pendingDrops := 0
  counters := {}

def new (config : SinkConfig) (staging : List Octet) : Except SinkError (Sink × List Octet) :=
  match prologueLen config with
  | .error error => .error error
  | .ok prologue =>
    if payloadFits prologue config.geometry.segmentBytes then
      match (fresh config prologue).writePrologue staging with
      | (.error error,_,_) => .error (.encode error)
      | (.ok _,sink,staging) => .ok (sink,staging)
    else .error (.prologueTooLong prologue config.geometry.segmentBytes)

def pad (self : Sink) (pad : ℕ) (staging : List Octet) : Except EncodeError ℕ × Sink × List Octet :=
  if pad < PcapngBlocks.minCustomBlockLen then (.error (.blockTooShort pad),self,staging)
  else
    match writeAt staging self.stagedLen staging.length (PcapngBlocks.paddingFrame pad) with
    | (.error error,staging) => (.error error,self,staging)
    | (.ok written,staging) =>
      match self.ring.append written with
      | (ring,.fits _) =>
        let counters := { self.counters with
          paddingBytes := satAdd self.counters.paddingBytes written }
        (.ok written,{ self with
          ring := ring, stagedLen := self.stagedLen+written, counters := counters },staging)
      | (ring,_) =>
        (.error (.outOfSpace written ring.slack),{ self with ring := ring },staging)

/-- Complete the open sector. A remainder too small for a block takes a sector more. -/
def sealSector (self : Sink) (staging : List Octet) : Except EncodeError ℕ × Sink × List Octet :=
  let remainder := self.ring.cursor.offset % sectorSize
  if remainder = 0 then (.ok 0,self,staging)
  else
    let pad := sectorSize - remainder
    self.pad (if pad < PcapngBlocks.minCustomBlockLen then pad+sectorSize else pad) staging

/-- Fill the rest of the open segment, without rolling. -/
def closeSegment (self : Sink) (staging : List Octet) :
    Except EncodeError ℕ × Sink × List Octet :=
  let padded := if self.ring.slack = 0 then (.ok 0,self,staging)
    else self.pad self.ring.slack staging
  match padded with
  | (.error error,sink,staging) => (.error error,sink,staging)
  | (.ok padded,sink,staging) =>
    let counters := { sink.counters with segmentsClosed := satAdd sink.counters.segmentsClosed 1 }
    (.ok padded,{ sink with counters := counters },staging)

/-- The sink at the head of the next segment, its buffer free. -/
def rolled (self : Sink) : Sink :=
  let ring := self.ring.roll
  let counters := { self.counters with
    wraps := satAdd self.counters.wraps (ring.counters.wraps - self.ring.counters.wraps) }
  { self with
    ring := ring, counters := counters, stagedSequence := ring.cursor.sequence, stagedFrom := 0
    stagedLen := 0 }

/-- Roll to the next segment and write its prologue. -/
def beginSegment (self : Sink) (staging : List Octet) :
    Except EncodeError ℕ × Sink × List Octet :=
  self.rolled.writePrologue staging

/-- The sink as a superblock's state leaves it, before a section is opened there. -/
def resumed (sink : Sink) (checked : RingState) : Sink :=
  { sink with
    ring := Ring.resume checked sink.ring.prologueLen
    stagedSequence := checked.writer.sequence
    stagedFrom := checked.writer.offset
    stagedLen := 0
    durable := checked.writer
    reader := (checked.readers.find? (·.id = channelReaderId)).map ReaderCursor.cursor
    superblockStale := false }

def resume (config : SinkConfig) (state : RingState) (staging : List Octet) :
    Except SinkError (Sink × List Octet) :=
  match state.check config.geometry with
  | .error error => .error (.state error)
  | .ok checked =>
    if checked.writer.offset % sectorSize ≠ 0 then
      .error (.state (.writerOffsetNotSectorMultiple checked.writer.offset))
    else
      match new config staging with
      | .error error => .error error
      | .ok (sink,staging) =>
        let sink := sink.resumed checked
        match sink.ring.fit sink.ring.prologueLen with
        | .fits _ =>
          let sink := { sink with ring := (sink.ring.append sink.ring.prologueLen).1 }
          match sink.writePrologue staging with
          | (.error error,_,_) => .error (.encode error)
          | (.ok _,sink,staging) => .ok (sink,staging)
        | _ =>
          match sink.closeSegment staging with
          | (.error error,_,_) => .error (.encode error)
          | (.ok _,sink,staging) => .ok (sink,staging)

def noteDrops (self : Sink) (drops : ℕ) : Sink :=
  { self with pendingDrops := BitVec.ofNat 64 (satAdd self.pendingDrops.toNat drops) }

/-- One observation as a packet block, stating the drops that are pending. -/
def compose (self : Sink) (tap : CheckedTap) (frame : List Octet) : EnhancedPacket where
  interfaceId := tap.interfaceId.setWidth 32
  timestamp := tap.timestamp
  captured := frame.take self.snapLen.toNat
  originalLen := tap.originalLen
  flags := tap.direction.map fun
    | .inbound => flagsInbound
    | .outbound => flagsOutbound
  dropCount := some self.pendingDrops
  packetId := some tap.packetId
  queue := none
  verdict := some ⟨verdictKind,[annotationVerdict tap]⟩
  custom := some ⟨PcapngBlocks.unregisteredPen, annotation tap⟩
  comment := none

/-- Where a record may go: what is unwritten, less a seal's room. -/
def place (self : Sink) (frame : Except EncodeError Frame) (staging : List Octet) :
    Recorded × Ring × List Octet :=
  match PcapngBlocks.frameLen frame with
  | .error error => (.refused error,self.ring,staging)
  | .ok needed =>
    if self.ring.segmentPayload < needed+tailReserve then
      (.oversized needed,self.ring,staging)
    else if self.ring.slack < needed+tailReserve then (.segmentFull,self.ring,staging)
    else
      match writeAt staging self.stagedLen (staging.length - tailReserve) frame with
      | (.error (.outOfSpace needed capacity),staging) =>
        (.stagingFull needed capacity,self.ring,staging)
      | (.error error,staging) => (.refused error,self.ring,staging)
      | (.ok written,staging) =>
        match self.ring.append written with
        | (ring,.fits _) => (.placed written,ring,staging)
        | (ring,.segmentFull) => (.segmentFull,ring,staging)
        | (ring,.oversized _ _) => (.oversized written,ring,staging)

def record (self : Sink) (tap : CheckedTap) (frame : List Octet) (staging : List Octet) :
    Recorded × Sink × List Octet :=
  match self.place (PcapngBlocks.enhancedPacketFrame (self.compose tap frame)) staging with
  | (.placed written,ring,staging) =>
    let counters := { self.counters with
      records := satAdd self.counters.records 1
      recordBytes := satAdd self.counters.recordBytes written }
    (.placed written,{ self with
      ring := ring, stagedLen := self.stagedLen+written, pendingDrops := 0
      counters := counters },staging)
  | (.segmentFull,ring,staging) => (.segmentFull,{ self with ring := ring },staging)
  | (.oversized needed,ring,staging) =>
    let counters := { self.counters with
      droppedOversized := satAdd self.counters.droppedOversized 1 }
    (.oversized needed,{ self with ring := ring, counters := counters },staging)
  | (.stagingFull needed free,ring,staging) =>
    let counters := { self.counters with
      stagingDeferrals := satAdd self.counters.stagingDeferrals 1 }
    (.stagingFull needed free,{ self with ring := ring, counters := counters },staging)
  | (.refused error,ring,staging) =>
    let counters := { self.counters with
      droppedRefused := satAdd self.counters.droppedRefused 1 }
    (.refused error,{ self with ring := ring, counters := counters },staging)

/-- The same steps for one custom block, counting nothing. -/
def block (self : Sink) (data : List Octet) (staging : List Octet) :
    Recorded × Sink × List Octet :=
  let frame := PcapngBlocks.customBlockFrame ⟨PcapngBlocks.unregisteredPen,data⟩
  match self.place (.ok frame) staging with
  | (.placed written,ring,staging) =>
    (.placed written,{ self with ring := ring, stagedLen := self.stagedLen+written },staging)
  | (answer,ring,staging) => (answer,{ self with ring := ring },staging)

/-- Every staged sector, the open one completed first. -/
def takeFlush (self : Sink) (staging : List Octet) : Option Flush × Sink × List Octet :=
  if self.flushing then (none,self,staging)
  else
    match self.sealSector staging with
    | (.error _,sink,staging) => (none,sink,staging)
    | (.ok _,sink,staging) =>
      let whole := sink.stagedLen / sectorSize*sectorSize
      if whole = 0 then (none,sink,staging)
      else
        let sector := satAdd (sink.ring.geometry.segmentSector sink.stagedSequence.toNat)
          (sink.stagedFrom / sectorSize)
        (some ⟨sector,whole⟩,{ sink with flushing := true },staging)

/-- The buffer moves down over the bytes the device has taken. -/
def acknowledge (self : Sink) (flush : Flush) (staging : List Octet) : Sink × List Octet :=
  let taken := min flush.len self.stagedLen
  let shifted :=
    if self.stagedLen ≤ staging.length then
      field staging taken (self.stagedLen - taken)++staging.drop (self.stagedLen - taken)
    else staging
  let stagedFrom := self.stagedFrom+flush.len
  let durable : Cursor :=
    if self.ring.geometry.segmentBytes ≤ stagedFrom then ⟨satSucc self.stagedSequence,0⟩
    else ⟨self.stagedSequence,stagedFrom⟩
  let counters := { self.counters with
    sectorsWritten := satAdd self.counters.sectorsWritten (flush.len / sectorSize) }
  ({ self with
    flushing := false, stagedFrom := stagedFrom, stagedLen := self.stagedLen - flush.len
    durable := durable, counters := counters },shifted)

/-- The next superblock, composed into the region's image. It states the durable cursor. -/
def superblock (self : Sink) (image : List Octet) :
    Except RingStateError (RingState × SuperblockWrite) × Sink × List Octet :=
  let readers := (self.reader.map (ReaderCursor.mk channelReaderId)).toList
  match self.ring.checkpoint self.durable readers with
  | (.error error,ring) => (.error error,{ self with ring := ring },image)
  | (.ok state,ring) =>
    let wrote := encodeSuperblock image state (if self.superblockStale then .both else .parity)
    (.ok (state,wrote.2),{ self with ring := ring },wrote.1)

def acknowledgeCheckpoint (self : Sink) : Sink := { self with superblockStale := false }

/-- One past the last byte the medium has taken. -/
def durablePosition (self : Sink) : ℕ :=
  satAdd (satMul self.durable.sequence.toNat self.ring.geometry.segmentBytes) self.durable.offset

/-- The oldest position still on the medium. -/
def firstPosition (self : Sink) : ℕ :=
  satMul self.ring.oldest self.ring.geometry.segmentBytes

/-- Take a server's word for how far it has read, clamped to what the medium holds and
never backward. -/
def acknowledgeReader (self : Sink) (position : ℕ) : Bool × Sink :=
  let segment := self.ring.geometry.segmentBytes
  if segment = 0 then (false,self)
  else
    let bounded := min (max position self.firstPosition) self.durablePosition
    let cursor : Cursor :=
      if self.durable.sequence.toNat < bounded / segment then self.durable
      else ⟨BitVec.ofNat 64 (bounded / segment),bounded % segment⟩
    let behind := match self.reader with
      | some held => decide (cursor.sequence < held.sequence ∨
          cursor.sequence = held.sequence ∧ cursor.offset ≤ held.offset)
      | none => false
    if behind then (false,self) else (true,{ self with reader := some cursor })

/-- Where a position of the recording lives on the device. -/
def find (self : Sink) (position : ℕ) : Locate × Sink :=
  let segment := self.ring.geometry.segmentBytes
  if self.durablePosition ≤ position then (.pastEnd,self)
  else if segment = 0 then (.pastEnd,self)
  else if position < self.firstPosition then (.overrun,self)
  else
    let inside := position % segment
    match self.ring.locate (position / segment) inside with
    | (ring,.live placement) =>
      (.live ⟨satAdd placement.sector (inside / sectorSize),inside % sectorSize,
        min placement.len (self.durablePosition - position)⟩,{ self with ring := ring })
    | (ring,.overrun _ _) => (.overrun,{ self with ring := ring })
    | (ring,.unwritten) => (.pastEnd,{ self with ring := ring })

end Sink

end LibreFirewall.Sinks

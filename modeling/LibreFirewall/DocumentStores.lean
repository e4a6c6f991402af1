import LibreFirewall.StateRecords

/-!
# The store domain

The two operations that change what the appliance keeps, `take_ownership` and
`place_document` of `pds/store/src/main.rs`, with `document.rs` and the part of
`install.rs` that decides on a parsed package. Each reads the record back off the medium,
decides, and answers the state it leaves and the writes it makes in order, every one of
them waited for behind a barrier. Three things the operations rest on are parameters: the
digest, the identity check of `verify`, and the package reader.
-/

namespace LibreFirewall.DocumentStores

open ByteLayouts StateRecords
open NetHeaders (Octet)
open CaptureRings (sectorSize)

inductive DocumentError where
  | empty
  | pastBound (len bound : ℕ)
  | generationZero
  | notNewest (named newest : BitVec 64)
  | arrayFull
  | digestMismatch

/-- What an accepted package changes about the appliance. -/
structure Adoption where
  deviceCertificate : StoredCertificate
  anchorCertificate : StoredCertificate
  endpoint : StoredEndpoint

inductive InstallError where
  | alreadyOwned
  | archivePastRegion (len staged : ℕ)
  | package

inductive Refusal where
  | recordAbsent
  | record (error : StateError)
  | identity
  | install (error : InstallError)
  | document (error : DocumentError)

/-- The store medium: the sectors of the two copies, and the sectors of each slot. -/
structure Medium where
  record : List Octet
  slots : Fin 8 → List Octet

/-- One transfer to the medium. -/
inductive Write where
  | document (slot : Fin 8) (bytes : List Octet)
  | record (sector : ℕ) (bytes : List Octet)

/-- A run of bytes with a part of it replaced. -/
def splice (bytes : List Octet) (start : ℕ) (part : List Octet) : List Octet :=
  bytes.take start++part++bytes.drop (start+part.length)

def Medium.write (medium : Medium) : Write → Medium
  | .document slot bytes =>
    { medium with
      slots := Function.update medium.slots slot (splice (medium.slots slot) 0 bytes) }
  | .record sector bytes =>
    { medium with record := splice medium.record ((sector - stateASector)*sectorSize) bytes }

/-- The whole sectors of a document, its tail zeroed. -/
def writeDocument (slot : Fin 8) (document : List Octet) : Write :=
  let padded := (document.length+sectorSize - 1) / sectorSize*sectorSize
  .document slot (document++List.replicate (padded - document.length) 0)

/-- What the operations rest on and do not define. -/
structure Environment where
  sha256 : List Octet → Vector Octet 32
  verify : State → Bool
  readPackage : List Octet → Vector Octet 65 → Option Adoption

namespace Environment

variable (env : Environment)

def stagedEntry (generation : BitVec 64) (document : List Octet) (slots : Slots) :
    Except DocumentError SlotEntry :=
  if document.length = 0 then .error .empty
  else if documentBytes < document.length then
    .error (.pastBound document.length documentBytes)
  else if generation = 0 then .error .generationZero
  else if generation ≤ slots.newestGeneration then
    .error (.notNewest generation slots.newestGeneration)
  else .ok ⟨generation,document.length,env.sha256 document⟩

def documentMatches (entry : SlotEntry) (document : List Octet) : Except DocumentError Unit :=
  if document.length ≠ entry.len then .error (.pastBound document.length entry.len)
  else if env.sha256 document ≠ entry.digest then .error .digestMismatch
  else .ok ()

/-- `install::read` over a package reader. -/
def readInstall (statedLen : ℕ) (staged : List Octet) (state : State) :
    Except InstallError Adoption :=
  match state.onboarding with
  | .onboarded => .error .alreadyOwned
  | .unowned =>
    if staged.length < statedLen then .error (.archivePastRegion statedLen staged.length)
    else
      match env.readPackage (staged.take statedLen) state.publicKey with
      | none => .error .package
      | some adoption => .ok adoption

/-- The record as an operation opens it: decoded, this build's, and its own identity. -/
def openRecord (medium : Medium) : Except Refusal State :=
  match decodeState env.sha256 medium.record with
  | none => .error .recordAbsent
  | some image =>
    match image.check with
    | .error error => .error (.record error)
    | .ok state => if env.verify state then .ok state else .error .identity

/-- The transfer of `commit`: exactly the copies that were composed, from where in the
buffer they were composed to the sector they belong at. -/
def commit (region : List Octet) (state : State) (copies : Copies) : Write :=
  let (image,write) := encodeState env.sha256 region state copies
  .record write.sector
    (field image ((write.sector - stateASector)*sectorSize) (write.sectors*sectorSize))

def takeOwnership (medium : Medium) (statedLen : ℕ) (staged : List Octet) :
    Except Refusal (State × List Write) :=
  match env.openRecord medium with
  | .error refusal => .error refusal
  | .ok state =>
    match env.readInstall statedLen staged state with
    | .error error => .error (.install error)
    | .ok adoption =>
      let after := state.adopt adoption.deviceCertificate adoption.anchorCertificate
        adoption.endpoint
      .ok (after,[env.commit medium.record after .parity])

def placeDocument (medium : Medium) (generation : BitVec 64) (statedLen : ℕ)
    (staged : List Octet) : Except Refusal (State × List Write) :=
  match env.openRecord medium with
  | .error refusal => .error refusal
  | .ok state =>
    if staged.length < statedLen then
      .error (.document (.pastBound statedLen staged.length))
    else
      let document := staged.take statedLen
      match env.stagedEntry generation document state.slots with
      | .error error => .error (.document error)
      | .ok entry =>
        match state.slots.nextForReuse with
        | none => .error (.document .arrayFull)
        | some reuse =>
          let after := state.recordDocument reuse.slot entry true
          .ok (after,[writeDocument reuse.slot document,env.commit medium.record after .parity])

end Environment

/-- What the domain is asked to change. -/
inductive Demand where
  | install (statedLen : ℕ) (staged : List Octet)
  | recordConfig (generation : BitVec 64) (statedLen : ℕ) (staged : List Octet)

/-- The state an operation leaves and the writes that leave it, or why there are none. -/
def Environment.plan (env : Environment) (medium : Medium) :
    Demand → Except Refusal (State × List Write)
  | .install statedLen staged => env.takeOwnership medium statedLen staged
  | .recordConfig generation statedLen staged =>
    env.placeDocument medium generation statedLen staged

/-- The media a sequence of writes can be found as once the power has gone: some of the
writes whole, and at most the next one in part. A slot may then hold anything; a copy of
the record is torn, which is to say that it does not decode. -/
inductive Interrupted (env : Environment) : Medium → List Write → Medium → Prop
  | stop (medium : Medium) (writes : List Write) : Interrupted env medium writes medium
  | part (medium : Medium) (slot : Fin 8) (bytes left : List Octet) (rest : List Write) :
      Interrupted env medium (.document slot bytes::rest)
        { medium with slots := Function.update medium.slots slot left }
  | torn (medium : Medium) (sector : ℕ) (bytes copy : List Octet) (rest : List Write) :
      copy.length = bytes.length → decodeCopy env.sha256 copy = none →
      Interrupted env medium (.record sector bytes::rest) (medium.write (.record sector copy))
  | next {medium after : Medium} {first : Write} {rest : List Write} :
      Interrupted env (medium.write first) rest after →
      Interrupted env medium (first::rest) after

end LibreFirewall.DocumentStores

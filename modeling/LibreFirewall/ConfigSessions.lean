import LibreFirewall.ServerFrames
import LibreFirewall.Histories

/-!
# A configuration transaction over the management channel, as the server records it

The versions of one appliance's configuration, how far each got, and the channel session
that moves them: an operator's document is staged, the appliance's verdict on it is
recorded and earns a commit, and the next connection confirms that commit. The appliance's
result lines carry no request identifier. A session holds the generation it has staged a
document for and the commit or confirmation it has sent, and reads a line as the answer to
the first of the two that is filled. Beside the session the model keeps the requests that
were sent and not answered, in the order they were sent, to say which of them a line answers.
-/

namespace LibreFirewall.ConfigSessions

open Histories

open NetHeaders (Octet)
open ConfigEntries (ascii)
open ServerFrames (ServerFrame)

/-! ### Versions -/

/-- One version of one appliance's configuration. An instant is a number of seconds. -/
structure ConfigurationVersion where
  generation : ℕ
  document : List Octet
  stagedAt : Option ℕ
  validatedAt : Option ℕ
  validationResult : Option (List Octet)
  committedAt : Option ℕ
  confirmedAt : Option ℕ
  deriving DecidableEq

/-- The fields of a result line, which are separated by spaces. -/
def resultFields (line : List Octet) : List (List Octet) :=
  (line.splitOn 0x20).filter (· ≠ [])

/-- What a field says, where it is the field of this name. -/
def named (name field : List Octet) : Option (List Octet) :=
  match field.span (· ≠ 0x3d) with
  | (front,_::rest) => if front = name then some rest else none
  | (_,[]) => none

def outcome (line : List Octet) : Option (List Octet) :=
  (resultFields line).findSome? (named (ascii "outcome"))

/-- Whether a line says the appliance took the document as its candidate. -/
def accepted (line : List Octet) : Bool := outcome line = some (ascii "staged")

/-- A whole number read from decimal digits and nothing else, with a plus sign in front or
none. A negative one is not a generation. -/
def parseInteger (digits : List Octet) : Option ℕ :=
  let digits := if digits.head? = some 0x2b then digits.tail else digits
  if digits ≠ [] ∧ digits.all (fun byte => 0x30 ≤ byte && byte ≤ 0x39) then
    some (digits.foldl (fun value byte => 10*value+(byte.toNat - 0x30)) 0)
  else none

/-- The generation a result line names. -/
def statedGeneration (line : List Octet) : Option ℕ :=
  (resultFields line).findSome? fun field =>
    ((named (ascii "generation") field).bind parseInteger).filter (0 < ·)

inductive VersionState where
  | delivered
  | staging
  | refused
  | staged
  | committed
  | confirmed
  deriving DecidableEq

/-- How far a version got, by the last thing that happened to it. -/
def ConfigurationVersion.state (self : ConfigurationVersion) : VersionState :=
  if self.confirmedAt.isSome then .confirmed
  else if self.committedAt.isSome then .committed
  else if self.validatedAt.isSome then
    if self.validationResult.any accepted then .staged else .refused
  else if self.stagedAt.isSome then .staging
  else .delivered

/-! ### The versions of an appliance -/

/-- Change the row of a generation, where there is one. -/
def advance (rows : List ConfigurationVersion) (generation : ℕ)
    (change : ConfigurationVersion → ConfigurationVersion) :
    Option (List ConfigurationVersion) :=
  if rows.any (·.generation = generation) then
    some (rows.map fun row => if row.generation = generation then change row else row)
  else none

/-- A line of nothing but spaces is stored as no line. -/
def castText (line : List Octet) : Option (List Octet) :=
  if line.all (· = 0x20) then none else some line

def configurationValidated (line : List Octet) (at_ : ℕ) (row : ConfigurationVersion) :
    ConfigurationVersion :=
  { row with validatedAt := some at_, validationResult := castText line }

def configurationCommitted (at_ : ℕ) (row : ConfigurationVersion) : ConfigurationVersion :=
  { row with committedAt := some at_ }

def configurationConfirmed (at_ : ℕ) (row : ConfigurationVersion) : ConfigurationVersion :=
  { row with confirmedAt := some at_ }

/-- The newest version that was committed and not confirmed. -/
def awaitingConfirmation (rows : List ConfigurationVersion) : Option ConfigurationVersion :=
  (rows.filter fun row => row.committedAt.isSome && row.confirmedAt.isNone).foldl
    (fun newest row =>
      match newest with
      | none => some row
      | some newest => if newest.generation < row.generation then some row else some newest)
    none

def nextGeneration (rows : List ConfigurationVersion) : ℕ :=
  (rows.map (·.generation)).foldl max 0+1

/-- No version is between being staged and being confirmed, one that was answered and not
committed apart. -/
def nothingInFlight (rows : List ConfigurationVersion) : Bool :=
  !rows.any fun row => row.stagedAt.isSome && row.confirmedAt.isNone &&
    (row.validatedAt.isNone || row.committedAt.isSome)

def stagedVersion (rows : List ConfigurationVersion) (document : List Octet) (now : ℕ) :
    ConfigurationVersion :=
  ⟨nextGeneration rows,document,some now,none,none,none,none⟩

/-! ### A session -/

/-- What a request frame asks of the appliance. -/
inductive Step where
  | stage
  | commit
  | confirm
  deriving DecidableEq

structure Session where
  greeted : Bool
  /-- The generation a document was sent for and no verdict came back on. -/
  staging : Option ℕ
  /-- The commit or confirmation that was sent and not answered. -/
  pending : Option (Step × ℕ)
  unanswered : ℕ
  ended : Bool

def Session.new : Session := ⟨false,none,none,0,false⟩

def confirmDeadlineSecs : ℕ := 300

/-- A request is sent: the frame encodes and the transport took it. A frame that does not
encode raises, and one the transport refused closes the session. -/
def sendFrame (frame : ServerFrame) (sent : Bool) : Bool :=
  (ServerFrames.encode .server frame).isOk && sent

/-- The generation a commit or a confirmation names: the appliance's own, where its result
line stated one. -/
def stagedGeneration (row : ConfigurationVersion) (fallback : ℕ) : ℕ :=
  (row.validationResult.bind statedGeneration).getD fallback

/-- The session, the versions it moves, the operators about to write one, the versions it was
asked to stage, and the requests sent and not answered. -/
structure Exchange where
  session : Session
  rows : List ConfigurationVersion
  admitted : List (List Octet)
  mailbox : List ConfigurationVersion
  outstanding : List (Step × ℕ)

def start (rows : List ConfigurationVersion) : Exchange := ⟨.new,rows,[],[],[]⟩

namespace Exchange

def close (self : Exchange) : Exchange :=
  { self with session := { self.session with ended := true } }

/-- The document goes down the wire and its generation is remembered. A staging while another
is outstanding is dropped. -/
def stage (self : Exchange) (version : ConfigurationVersion) (sent : Bool) : Exchange :=
  if self.session.staging.isSome then self
  else if sendFrame (.downConfigStage version.document) sent then
    { self with
      session := { self.session with staging := some version.generation }
      outstanding := self.outstanding++[(.stage,version.generation)] }
  else self.close

def commit (self : Exchange) (generation stated : ℕ) (sent : Bool) : Exchange :=
  if sendFrame (.downConfigCommit stated confirmDeadlineSecs) sent then
    { self with
      session := { self.session with pending := some (.commit,generation) }
      outstanding := self.outstanding++[(.commit,generation)] }
  else self.close

def confirm (self : Exchange) (version : ConfigurationVersion) (sent : Bool) : Exchange :=
  if sendFrame (.downCommitConfirm (stagedGeneration version version.generation)) sent then
    { self with
      session := { self.session with pending := some (.confirm,version.generation) }
      outstanding := self.outstanding++[(.confirm,version.generation)] }
  else self.close

/-- What a fresh connection owes before anything else: the confirmation of a commit made on a
previous one, unless the appliance's own deadline for it has passed. -/
def greeted (self : Exchange) (now : ℕ) (sent : Bool) : Exchange :=
  match awaitingConfirmation self.rows with
  | none => self
  | some version =>
    match version.committedAt with
    | none => self
    | some committed =>
      if now ≤ committed+confirmDeadlineSecs then self.confirm version sent else self

/-- The appliance's verdict, recorded, and then the commit it earns. -/
def validated (self : Exchange) (generation : ℕ) (line : List Octet) (now : ℕ) (sent : Bool) :
    Exchange :=
  match advance self.rows generation (configurationValidated line now) with
  | none => self.close
  | some rows =>
    let recorded := { self with rows := rows }
    if accepted line then
      recorded.commit generation
        (((rows.find? (·.generation = generation)).map (stagedGeneration · generation)).getD
          generation) sent
    else recorded

/-- What the appliance answered a commit or a confirmation with, recorded only where it says
the step happened. -/
def settled (self : Exchange) (step : Step) (generation : ℕ) (line : List Octet) (now : ℕ) :
    Exchange :=
  if step = .commit ∧ (outcome line = some (ascii "applied") ∨
      outcome line = some (ascii "unchanged")) then
    match advance self.rows generation (configurationCommitted now) with
    | none => self.close
    | some rows => { self with rows := rows }
  else if step = .confirm ∧ outcome line = some (ascii "confirmed") then
    match advance self.rows generation (configurationConfirmed now) with
    | none => self.close
    | some rows => { self with rows := rows }
  else self

/-- A result line: the verdict on the document this session staged while it waits for one,
and else the answer to the commit or the confirmation it sent. -/
def result (self : Exchange) (line : List Octet) (now : ℕ) (sent : Bool) : Exchange :=
  match self.session.staging with
  | some generation =>
    { self with session := { self.session with staging := none } }.validated generation line now
      sent
  | none =>
    match self.session.pending with
    | some (step,generation) =>
      { self with session := { self.session with pending := none } }.settled step generation
        line now
    | none =>
      { self with session := { self.session with unanswered := self.session.unanswered+1 } }

end Exchange

/-! ### Runs -/

/-- What can happen: operators are admitted and write their versions, the session takes an
operator's message, and frames arrive from the appliance, which answers requests in the order
they were sent. -/
inductive Event where
  /-- An operator's document is checked, by this server's own check and against what is in
  flight. -/
  | check (document : List Octet)
  /-- A checked document becomes a version and the session is asked to send it. -/
  | insert (document : List Octet) (now : ℕ)
  /-- The session takes the next version it was asked to stage. -/
  | deliver (sent : Bool)
  /-- The appliance greets. -/
  | hello (now : ℕ) (sent : Bool)
  /-- The appliance answers the oldest request it has not answered. -/
  | answer (line : List Octet) (now : ℕ) (sent : Bool)
  /-- Bytes of a recording, which the session hands on. -/
  | ring
  /-- A legal frame of a kind this server does not answer. -/
  | other
  /-- The connection ends, for whatever cause. -/
  | closed

section Runs

variable (validate : List Octet → Bool)

/-- One event. Nothing but the operators moves once the session has ended, and before the
greeting the decoder takes no other frame. -/
def Exchange.step (self : Exchange) (event : Event) : Exchange :=
  match event with
  | .check document =>
    if validate document && nothingInFlight self.rows then
      { self with admitted := document::self.admitted }
    else self
  | .insert document now =>
    if document ∈ self.admitted then
      let version := stagedVersion self.rows document now
      { self with
        rows := self.rows++[version]
        admitted := self.admitted.erase document
        mailbox := if self.session.ended then self.mailbox else self.mailbox++[version] }
    else self
  | .deliver sent =>
    match self.mailbox with
    | [] => self
    | version::mailbox =>
      if self.session.ended then self else { self with mailbox := mailbox }.stage version sent
  | .hello now sent =>
    if self.session.ended then self
    else if self.session.greeted then self.close
    else { self with session := { self.session with greeted := true } }.greeted now sent
  | .answer line now sent =>
    match self.outstanding with
    | [] => self
    | _::outstanding =>
      if self.session.ended then self
      else if !self.session.greeted then self.close
      else { self with outstanding := outstanding }.result line now sent
  | .ring =>
    if self.session.ended then self
    else if !self.session.greeted then self.close
    else self
  | .other =>
    if self.session.ended then self
    else if !self.session.greeted then self.close
    else
      { self with session := { self.session with unanswered := self.session.unanswered+1 } }
  | .closed => self.close

/-- What a result line says of the version whose request it answers. -/
def recorded (step : Step) (line : List Octet) (now : ℕ) (row : ConfigurationVersion) :
    ConfigurationVersion :=
  match step with
  | .stage => configurationValidated line now row
  | .commit =>
    if outcome line = some (ascii "applied") ∨ outcome line = some (ascii "unchanged") then
      configurationCommitted now row
    else row
  | .confirm =>
    if outcome line = some (ascii "confirmed") then configurationConfirmed now row else row

/-- The versions, with the one of a generation changed as a line says. -/
def recordedRows (rows : List ConfigurationVersion) (step : Step) (generation : ℕ)
    (line : List Octet) (now : ℕ) : List ConfigurationVersion :=
  rows.map fun row => if row.generation = generation then recorded step line now row else row

/-- There is a version of this generation. -/
def Known (rows : List ConfigurationVersion) (generation : ℕ) : Prop :=
  ∃ row ∈ rows, row.generation = generation

/-- The next result line this session takes is recorded on the version whose request it
answers, and on no other. -/
def Attributed (exchange : Exchange) : Prop :=
  ∀ step generation later, exchange.outstanding = (step,generation)::later →
    exchange.session.ended = false → exchange.session.greeted = true →
    Known exchange.rows generation ∧ ∀ line now sent,
      (exchange.step validate (.answer line now sent)).rows =
        recordedRows exchange.rows step generation line now

/-- No request is sent while another is unanswered: a version is staged only while no commit
or confirmation is out, and the greeting finds no confirmation owed while a document is. -/
def Admitted (exchange : Exchange) : Event → Prop
  | .deliver _ => exchange.session.pending = none
  | .hello _ _ => exchange.session.staging = none ∨ awaitingConfirmation exchange.rows = none
  | _ => True

/-- The requests a session knows it is waiting on. -/
def Session.requests (self : Session) : List (Step × ℕ) :=
  (self.staging.map fun generation => (.stage,generation)).toList++self.pending.toList

/-- What a session knows it is waiting on is what was sent and not answered, one request at
most. -/
structure Paired (exchange : Exchange) : Prop where
  requests : exchange.session.ended = false →
    exchange.outstanding = exchange.session.requests ∧ exchange.session.requests.length ≤ 1
  pending : ∀ generation, exchange.session.pending ≠ some (.stage,generation)
  first : exchange.session.greeted = false → exchange.session.pending = none
  known : ∀ request ∈ exchange.outstanding, Known exchange.rows request.2
  asked : ∀ version ∈ exchange.mailbox, Known exchange.rows version.generation

variable {validate : List Octet → Bool} {exchange : Exchange}

variable {rows : List ConfigurationVersion} {generation : ℕ}

theorem Known.map (h : Known rows generation) {change : ConfigurationVersion → ConfigurationVersion}
    (hc : ∀ row, (change row).generation = row.generation) :
    Known (rows.map change) generation := by
  obtain ⟨row,hr,hg⟩ := h
  exact ⟨change row,List.mem_map_of_mem hr,(hc row).trans hg⟩

theorem generation_recorded (s : Step) (l : List Octet) (now : ℕ)
    (row : ConfigurationVersion) : (recorded s l now row).generation = row.generation := by
  cases s with
  | stage => rfl
  | commit
  | confirm =>
    simp only [recorded]
    split_ifs <;> rfl

theorem advance_known
    (h : Known rows generation) (change : ConfigurationVersion → ConfigurationVersion) :
    advance rows generation change =
      some (rows.map fun row => if row.generation = generation then change row else row) := by
  obtain ⟨row,hr,hg⟩ := h
  rw [advance,if_pos]
  simp only [List.any_eq_true,decide_eq_true_eq]
  exact ⟨row,hr,hg⟩

theorem awaitingConfirmation_mem
    {v : ConfigurationVersion} (h : awaitingConfirmation rows = some v) :
    v ∈ rows := by
  have hnw : ∀ (rows : List ConfigurationVersion) (n : Option ConfigurationVersion),
      rows.foldl
          (fun n row =>
            match n with
            | none => some row
            | some n => if n.generation < row.generation then some row else some n)
          n = some v →
        v ∈ rows ∨ n = some v := by
    intro rows
    induction rows with
    | nil => exact fun n hnw => .inr hnw
    | cons row rows ih =>
      intro n hf
      obtain hl | hn := ih _ hf
      · exact .inl (List.mem_cons_of_mem row hl)
      · cases n with
        | none =>
          cases hn
          exact .inl List.mem_cons_self
        | some he =>
          dsimp only at hn
          split_ifs at hn
          · cases hn
            exact .inl List.mem_cons_self
          · exact .inr hn
  obtain hr | hnn := hnw _ _ h
  · exact List.mem_of_mem_filter hr
  · cases hnn

/-! #### What each event keeps -/

theorem Paired.close (h : Paired exchange) : Paired exchange.close :=
  ⟨nofun,h.pending,h.first,h.known,h.asked⟩

theorem Paired.sends (h : Paired exchange) (hi : exchange.session.requests = [])
    {s : Session} {r : Step × ℕ} (he : s.ended = exchange.session.ended)
    (hr : s.requests = [r])
    (hp : ∀ generation, s.pending ≠ some (.stage,generation))
    (hf : s.greeted = false → s.pending = none)
    (hk : Known exchange.rows r.2) :
    Paired { exchange with
      session := s, outstanding := exchange.outstanding++[r] } := by
  refine ⟨fun ho => ?_,hp,hf,?_,h.asked⟩
  · obtain ⟨hou,-⟩ := h.requests (he.symm.trans ho)
    rw [hou,hi,hr]
    exact ⟨rfl,le_rfl⟩
  · intro o hot
    obtain hb | hn := List.mem_append.mp hot
    · exact h.known o hb
    · cases List.mem_singleton.mp hn
      exact hk

theorem Paired.stage (h : Paired exchange) (hp : exchange.session.pending = none)
    {v : ConfigurationVersion} (hv : Known exchange.rows v.generation)
    (s : Bool) : Paired (exchange.stage v s) := by
  unfold Exchange.stage
  split_ifs with hs hsn
  · exact h
  · rw [Option.not_isSome_iff_eq_none] at hs
    exact h.sends (by simp [Session.requests,hs,hp]) rfl
      (by simp [Session.requests,hp]) h.pending h.first hv
  · exact h.close

theorem Session.staging_eq_none {s : Session} (h : s.requests = []) : s.staging = none := by
  simpa [Session.requests] using (List.append_eq_nil_iff.mp h).1

theorem Paired.commit (h : Paired exchange) (hi : exchange.session.requests = [])
    (hg : exchange.session.greeted)
    (hk : Known exchange.rows generation) (s : ℕ) (sn : Bool) :
    Paired (exchange.commit generation s sn) := by
  unfold Exchange.commit
  split_ifs with hs
  · exact h.sends hi rfl (by simp [Session.requests,Session.staging_eq_none hi]) nofun
      (fun hu => nomatch hu.symm.trans hg) hk
  · exact h.close

theorem Paired.confirm (h : Paired exchange) (hi : exchange.session.requests = [])
    (hg : exchange.session.greeted)
    {v : ConfigurationVersion} (hv : Known exchange.rows v.generation)
    (s : Bool) : Paired (exchange.confirm v s) := by
  unfold Exchange.confirm
  split_ifs with hs
  · exact h.sends hi rfl (by simp [Session.requests,Session.staging_eq_none hi]) nofun
      (fun hu => nomatch hu.symm.trans hg) hv
  · exact h.close

theorem Known.recordedRows
    (h : Known rows generation) (s : Step) (c : ℕ) (l : List Octet) (now : ℕ) :
    Known (recordedRows rows s c l now) generation := by
  refine h.map fun row => ?_
  split_ifs
  · exact generation_recorded s l now row
  · rfl

theorem Paired.idle (h : Paired exchange) {s : Session} (hs : s.staging = none)
    (hp : s.pending = none) (st : Step) (generation : ℕ) (l : List Octet)
    (now : ℕ) :
    Paired { exchange with
      session := s, rows := recordedRows exchange.rows st generation l now,
      outstanding := [] } := by
  have hr : s.requests = [] := by simp [Session.requests,hs,hp]
  refine ⟨fun _ => ?_,?_,fun _ => hp,nofun,fun v hv => ?_⟩
  · rw [hr]
    exact ⟨rfl,Nat.zero_le 1⟩
  · rw [hp]
    nofun
  · exact (h.asked v hv).recordedRows st generation l now

theorem validated_recorded {generation : ℕ} (hk : Known exchange.rows generation)
    (l : List Octet) (now : ℕ) (sn : Bool) :
    ∃ s, exchange.validated generation l now sn =
      let answered :=
        { exchange with rows := recordedRows exchange.rows .stage generation l now }
      if accepted l then answered.commit generation s sn else answered := by
  rw [Exchange.validated,advance_known hk]
  exact ⟨_,rfl⟩

theorem rows_commit (generation s : ℕ) (sn : Bool) :
    (exchange.commit generation s sn).rows = exchange.rows := by
  unfold Exchange.commit
  split_ifs <;> rfl

theorem settled_recorded {s : Step} (hs : s ≠ .stage) {generation : ℕ}
    (hk : Known exchange.rows generation) (l : List Octet) (now : ℕ) :
    exchange.settled s generation l now =
      { exchange with rows := recordedRows exchange.rows s generation l now } := by
  unfold Exchange.settled recordedRows
  cases s with
  | stage => exact absurd rfl hs
  | commit =>
    by_cases hh :
        outcome l = some (ascii "applied") ∨ outcome l = some (ascii "unchanged")
    · simp only [recorded,hh,and_self,if_true,advance_known hk]
    · simp only [recorded,hh,and_false,if_false,reduceCtorEq,false_and,ite_self,List.map_id']
  | confirm =>
    by_cases hh : outcome l = some (ascii "confirmed")
    · simp only [recorded,hh,and_self,if_true,advance_known hk,reduceCtorEq,false_and,if_false]
    · simp only [recorded,hh,and_false,if_false,reduceCtorEq,false_and,ite_self,List.map_id']

theorem Paired.request (h : Paired exchange) (hn : exchange.session.ended = false)
    {s : Step} {l : List (Step × ℕ)}
    (hr : exchange.outstanding = (s,generation)::l) : l = [] ∧
      ((s = .stage ∧ exchange.session.staging = some generation ∧ exchange.session.pending = none) ∨
        (s ≠ .stage ∧ exchange.session.staging = none ∧
          exchange.session.pending = some (s,generation))) := by
  obtain ⟨hot,ho⟩ := h.requests hn
  rw [hot] at hr
  rw [hr,List.length_cons] at ho
  have hl : l = [] := List.length_eq_zero_iff.mp (by omega)
  subst hl
  refine ⟨rfl,?_⟩
  unfold Session.requests at hr
  cases hs : exchange.session.staging with
  | some st =>
    rw [hs] at hr
    cases hp : exchange.session.pending with
    | none =>
      rw [hp] at hr
      cases hr
      exact .inl ⟨rfl,rfl,rfl⟩
    | some p =>
      rw [hp] at hr
      cases hr
  | none =>
    rw [hs] at hr
    cases hp : exchange.session.pending with
    | none =>
      rw [hp] at hr
      cases hr
    | some p =>
      rw [hp] at hr
      cases hr
      exact .inr ⟨fun hst => h.pending generation (hst ▸ hp),rfl,rfl⟩

/-- A line that answers the request that is out is recorded on its version, and leaves the
session waiting on what was sent next. -/
theorem result_recorded (h : Paired exchange) (ho : exchange.session.ended = false)
    (hg : exchange.session.greeted) {st : Step}
    {l : List (Step × ℕ)} (hr : exchange.outstanding = (st,generation)::l)
    (ln : List Octet) (now : ℕ) (sn : Bool) :
    ({ exchange with outstanding := l }.result ln now sn).rows =
        recordedRows exchange.rows st generation ln now ∧
      Paired ({ exchange with outstanding := l }.result ln now sn) := by
  have hk : Known exchange.rows generation :=
    h.known (st,generation) (hr ▸ List.mem_cons_self)
  obtain ⟨rfl,⟨rfl,hs,hp⟩ | ⟨ht,hs,hp⟩⟩ :=
    h.request ho hr
  · have hi := @Paired.idle _ h { exchange.session with staging := none } rfl hp .stage
      generation ln now
    simp only [Exchange.result,hs]
    obtain ⟨s,hv⟩ := @validated_recorded
      { exchange with session := { exchange.session with staging := none }, outstanding := [] }
      generation hk ln now sn
    rw [hv]
    dsimp only
    split_ifs
    · exact ⟨rows_commit generation s sn,hi.commit
        (by simp [Session.requests,hp]) hg (hk.recordedRows _ _ _ _) s sn⟩
    · exact ⟨rfl,hi⟩
  · have hi := @Paired.idle _ h { exchange.session with staging := none, pending := none } rfl
      rfl st generation ln now
    simp only [Exchange.result,hs,hp]
    have hst := @settled_recorded { exchange with
      session := { exchange.session with staging := none, pending := none }, outstanding := [] }
      st ht generation hk ln now
    rw [hst]
    exact ⟨rfl,hi⟩

theorem Paired.greeted (h : Paired exchange) (hg : exchange.session.greeted)
    (had : exchange.session.staging = none ∨ awaitingConfirmation exchange.rows = none)
    (hp : exchange.session.pending = none) (now : ℕ) (s : Bool) :
    Paired (exchange.greeted now s) := by
  unfold Exchange.greeted
  cases ha : awaitingConfirmation exchange.rows with
  | none => exact h
  | some v =>
    have hs := had.resolve_right (by rw [ha]; nofun)
    dsimp only
    cases v.committedAt with
    | none => exact h
    | some c =>
      dsimp only
      split_ifs
      · exact h.confirm (by simp [Session.requests,hs,hp]) hg
          ⟨v,awaitingConfirmation_mem ha,rfl⟩ s
      · exact h

theorem Paired.step (h : Paired exchange) {e : Event} (ha : Admitted exchange e) :
    Paired (exchange.step validate e) := by
  cases e with
  | check d =>
    simp only [Exchange.step]
    split_ifs
    · exact { h with }
    · exact h
  | insert d now =>
    have hk : ∀ {generation}, Known exchange.rows generation →
        Known (exchange.rows++[stagedVersion exchange.rows d now]) generation := by
      rintro generation ⟨row,hrw,hgn⟩
      exact ⟨row,List.mem_append_left _ hrw,hgn⟩
    have hkn : ∀ r ∈ exchange.outstanding,
        Known (exchange.rows++[stagedVersion exchange.rows d now]) r.2 :=
      fun r hr => hk (h.known r hr)
    simp only [Exchange.step]
    split_ifs with hmm he
    · exact { h with known := hkn, asked := fun v hv => hk (h.asked v hv) }
    · refine { h with known := hkn, asked := fun v hv => ?_ }
      obtain hb | hn := List.mem_append.mp hv
      · exact hk (h.asked v hb)
      · exact ⟨v,List.mem_append_right _ hn,rfl⟩
    · exact h
  | deliver s =>
    simp only [Exchange.step]
    cases hm : exchange.mailbox with
    | nil => exact h
    | cons v m =>
      dsimp only
      split_ifs
      · exact h
      · have ht : Paired { exchange with mailbox := m } :=
          { h with asked := fun o ho => h.asked o (hm ▸ List.mem_cons_of_mem v ho) }
        exact ht.stage ha (h.asked v (hm ▸ List.mem_cons_self)) s
  | hello now s =>
    simp only [Exchange.step]
    split_ifs with he hg
    · exact h
    · exact h.close
    · have hp := h.first (Bool.not_eq_true _ ▸ hg)
      have hnw : Paired { exchange with session := { exchange.session with greeted := true } } :=
        { h with first := nofun }
      exact hnw.greeted rfl ha hp now s
  | answer l now s =>
    simp only [Exchange.step]
    cases hot : exchange.outstanding with
    | nil => exact h
    | cons r lt =>
      dsimp only
      split_ifs with he hg
      · exact h
      · exact h.close
      · exact (result_recorded h (by simpa using he) (by simpa using hg) hot
          l now s).2
  | ring =>
    simp only [Exchange.step]
    split_ifs
    · exact h
    · exact h.close
    · exact h
  | other =>
    simp only [Exchange.step]
    split_ifs
    · exact h
    · exact h.close
    · exact { h with }
  | closed => exact h.close

theorem paired_start (rows : List ConfigurationVersion) : Paired (start rows) :=
  ⟨fun _ => ⟨rfl,Nat.zero_le 1⟩,nofun,fun _ => rfl,nofun,nofun⟩

variable (validate)

/-- In every run in which no request is sent while another is unanswered, every result line is
recorded on the version whose request it answers. -/
theorem verdicts_attributed (rows : List ConfigurationVersion) (events : List Event)
    (h : Along (Exchange.step validate) Admitted (start rows) events) :
    Attributed validate (run (Exchange.step validate) (start rows) events) := by
  have hp : Paired (run (Exchange.step validate) (start rows) events) :=
    h.invariant (fun _ _ he ha => he.step ha) (paired_start rows)
  intro s generation lt hr ho hg
  refine ⟨hp.known (s,generation) (hr ▸ List.mem_cons_self),
    fun l now sn => ?_⟩
  simp only [Exchange.step,hr,ho,hg,Bool.not_true,Bool.false_eq_true,if_false]
  exact (result_recorded hp ho hg hr l now sn).1

end Runs

/-! ### A second document staged before the first commit is answered -/

section Overlapping

/-- The server's check of a document's sections, on text that is well formed: each occurs once. -/
def sectioned (document : List Octet) : Bool :=
  [ascii "<interfaces",ascii "<neighbours",ascii "<rules",ascii "<management"].all fun section_ =>
    (document.tails.filter section_.isPrefixOf).length = 1

/-- A document that only addresses the management port. -/
def addressed (host : String) : List Octet :=
  ascii "<configuration><interfaces/><neighbours/><rules/><management mac=\"52:54:00:12:34:52\"" ++
    ascii " address=\"10.0.2."++ascii host++ascii "\" prefix-length=\"24\" enabled=\"true\"/>" ++
    ascii "</configuration>"

/-- The version an onboarding package carried. -/
def delivered : List ConfigurationVersion := [⟨1,addressed "15",none,none,none,none,none⟩]

/-- A greeting, a document staged and taken as the candidate, and its commit sent. -/
def committing : List Event :=
  [.hello 100 true,.check (addressed "16"),.insert (addressed "16") 101,.deliver true,
    .answer (ascii "generation=2 outcome=staged changes=1") 102 true]

/-- The context admits a second document while the commit of the first is unanswered, because
that version was answered and is not committed yet. The commit's answer is then recorded as
the verdict on the second document, and the first is never recorded as committed. -/
theorem commit_answer_on_another_version :
    let exchange := run (Exchange.step sectioned) (start delivered)
      (committing++[.check (addressed "17"),.insert (addressed "17") 103,.deliver true])
    exchange.outstanding = [(.commit,2),(.stage,3)] ∧
      (exchange.step sectioned (.answer (ascii "generation=2 outcome=applied changes=1") 104
        true)).rows.map (fun row => (row.generation,row.state)) =
          [(1,.delivered),(2,.staged),(3,.refused)] ∧
      ¬Attributed sectioned exchange := by
  refine ⟨by decide +kernel,by decide +kernel,fun ha => ?_⟩
  have hr := (ha .commit 2 [(.stage,3)] (by decide +kernel) (by decide +kernel)
    (by decide +kernel)).2 (ascii "generation=2 outcome=applied changes=1") 104 true
  revert hr
  decide +kernel

/-- One document at a time: the commit's answer goes to the version that was committed. -/
theorem verdicts_attributed_committing :
    Attributed sectioned (run (Exchange.step sectioned) (start delivered) committing) := by
  apply verdicts_attributed
  refine ⟨.inl rfl,trivial,trivial,?_,trivial,trivial⟩
  rw [Admitted]
  decide +kernel

end Overlapping

end LibreFirewall.ConfigSessions

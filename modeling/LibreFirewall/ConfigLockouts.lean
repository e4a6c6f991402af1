import LibreFirewall.ConfigSessions

/-!
# Whether a configuration can always be staged again

The versions of one appliance's configuration over all the connections that appliance makes.
A staging is refused while a version is in flight, and a version is in flight by what its row
says: it was staged and no verdict on it is recorded, or it was committed and no confirmation
is. Only a session clears either, the verdict's only if that session still remembers the
document it sent. Connections come and go, at most one of them is registered for an operator's
documents, and a second of one appliance goes on without being registered.
-/

namespace LibreFirewall.ConfigLockouts

open Histories
open Function (update update_of_ne update_self)
open List (mem_cons_self)
open NetHeaders (Octet)
open ConfigEntries (ascii)
open ConfigSessions

/-! ### The server -/

/-- The largest document a package member holds. -/
def maximumBytes : ℕ := 64*1024

/-- This server's check of a document: its size, and what `rest` says of its text. -/
def validate (rest : List Octet → Bool) (document : List Octet) : Bool :=
  document.length ≤ maximumBytes && rest document

/-- One connection of the appliance: its session, and the versions it was asked to stage. -/
structure Connection where
  session : Session
  mailbox : List ConfigurationVersion

/-- The generations a connection still has to bring a verdict on. -/
def Connection.held (self : Connection) : List ℕ :=
  self.session.staging.toList++self.mailbox.map (·.generation)

/-- The exchange a connection's action is made on. -/
def Connection.over (self : Connection) (rows : List ConfigurationVersion) : Exchange :=
  ⟨self.session,rows,[],self.mailbox,[]⟩

/-- What can happen on one connection. -/
inductive Action where
  /-- The session takes the next version it was asked to stage. -/
  | deliver (sent : Bool)
  /-- The appliance greets. -/
  | hello (sent : Bool)
  /-- The appliance sends a result line. -/
  | line (line : List Octet) (sent : Bool)
  /-- Any other frame. -/
  | other
  /-- The connection ends, for whatever cause. -/
  | closed

structure Server where
  rows : List ConfigurationVersion
  admitted : List (List Octet)
  connections : ℕ → Option Connection
  opened : ℕ
  /-- The connection that holds the registration. -/
  registered : Option ℕ
  now : ℕ

inductive Event where
  /-- An operator's document is checked against what is in flight. -/
  | check (document : List Octet)
  /-- A checked document becomes a version, and the registered session is asked to send it. -/
  | insert (document : List Octet)
  | connect
  | acts (connection : ℕ) (action : Action)
  /-- Time passes, in seconds. -/
  | tick (seconds : ℕ)

namespace Server

/-- An appliance just onboarded, with the version its package carried. -/
def start (document : List Octet) (now : ℕ) : Server where
  rows := [⟨1,document,none,none,none,none,none⟩]
  admitted := []
  connections _ := none
  opened := 0
  registered := none
  now := now

/-- What a session makes of an action, over the versions as they stand. -/
def turn (rest : List Octet → Bool) (now : ℕ) (exchange : Exchange) : Action → Exchange
  | .deliver sent => exchange.step (validate rest) (.deliver sent)
  | .hello sent => exchange.step (validate rest) (.hello now sent)
  | .line line sent =>
    if !exchange.session.greeted then exchange.close else exchange.result line now sent
  | .other => exchange.step (validate rest) .other
  | .closed => exchange.step (validate rest) .closed

/-- The server once a connection has come to `connection` over `rows`. A session that has ended
is registered no more. -/
def turned (self : Server) (index : ℕ) (rows : List ConfigurationVersion)
    (connection : Connection) : Server :=
  { self with
    rows := rows
    connections := update self.connections index (some connection)
    registered :=
      if connection.session.ended ∧ self.registered = some index then none else self.registered }

def act (rest : List Octet → Bool) (self : Server) (index : ℕ) (action : Action) : Server :=
  match self.connections index with
  | none => self
  | some connection =>
    if connection.session.ended then self
    else
      let after := turn rest self.now (connection.over self.rows) action
      self.turned index after.rows ⟨after.session,after.mailbox⟩

/-- A version put in the registered session's mailbox, where there is one. -/
def post (self : Server) (version : ConfigurationVersion) : ℕ → Option Connection :=
  match self.registered with
  | none => self.connections
  | some index =>
    update self.connections index ((self.connections index).map fun connection =>
      { connection with mailbox := connection.mailbox++[version] })

def step (rest : List Octet → Bool) (self : Server) : Event → Server
  | .check document =>
    if validate rest document && nothingInFlight self.rows then
      { self with admitted := document::self.admitted }
    else self
  | .insert document =>
    if document ∈ self.admitted then
      let version := stagedVersion self.rows document self.now
      { self with
        rows := self.rows++[version]
        admitted := self.admitted.erase document
        connections := self.post version }
    else self
  | .connect =>
    { self with
      connections := update self.connections self.opened (some ⟨.new,[]⟩)
      opened := self.opened+1
      registered := self.registered.or (some self.opened) }
  | .acts index action => self.act rest index action
  | .tick seconds => { self with now := self.now+seconds }

/-- Why a staging is refused. -/
inductive StageRefusal where
  | invalid
  | inFlight
  | noSession
  deriving DecidableEq

/-- What an operator staging a document is answered. -/
def stageConfiguration (rest : List Octet → Bool) (self : Server) (document : List Octet) :
    Except StageRefusal ConfigurationVersion :=
  if !validate rest document then .error .invalid
  else if !nothingInFlight self.rows then .error .inFlight
  else if self.registered.isNone then .error .noSession
  else .ok (stagedVersion self.rows document self.now)

/-- Some later events lead to where a staging is accepted again, of every document this server
can be asked to stage. -/
def Recoverable (rest : List Octet → Bool) (self : Server) : Prop :=
  Leads (step rest) self fun later => ∀ document, validate rest document →
    (later.stageConfiguration rest document).isOk

/-- No version is left behind: a version is written only while a session is registered for it,
a session takes one only while it waits for no verdict, a session ends only with nothing to
bring a verdict on, and a commit is not left unconfirmed past its deadline. -/
def Kept (self : Server) : Event → Prop
  | .insert _ => self.registered.isSome
  | .acts index action => ∀ connection, self.connections index = some connection →
    match action with
    | .deliver sent => connection.session.staging = none ∧ sent
    | .hello sent => connection.held = [] ∨ (connection.session.greeted = false ∧ sent)
    | .line _ sent => connection.held = [] ∨
      (connection.session.greeted ∧ (connection.mailbox = [] ∨ sent))
    | .other => connection.held = [] ∨ connection.session.greeted
    | .closed => connection.held = []
  | .tick seconds => ∀ row ∈ self.rows, ∀ committed, row.committedAt = some committed →
    row.confirmedAt = none → self.now+seconds ≤ committed+confirmDeadlineSecs
  | _ => True

/-! ### What a session can make of an action -/

/-- What comes of an action on a connection whose session is live. -/
inductive Turn (now : ℕ) (rows : List ConfigurationVersion) (connection : Connection) :
    Action → List ConfigurationVersion → Connection → Prop
  | waits {sent : Bool} (empty : connection.mailbox = []) :
      Turn now rows connection (.deliver sent) rows connection
  | stages {sent : Bool} {version : ConfigurationVersion} {mailbox : List ConfigurationVersion}
      (next : connection.mailbox = version::mailbox)
      (free : connection.session.staging = none) :
      Turn now rows connection (.deliver sent) rows
        ⟨{ connection.session with staging := some version.generation },mailbox⟩
  | drops {sent : Bool} {version : ConfigurationVersion} {mailbox : List ConfigurationVersion}
      (next : connection.mailbox = version::mailbox)
      (busy : connection.session.staging.isSome) :
      Turn now rows connection (.deliver sent) rows ⟨connection.session,mailbox⟩
  | unsent {sent : Bool} {version : ConfigurationVersion} {mailbox : List ConfigurationVersion}
      (next : connection.mailbox = version::mailbox)
      (refused : sendFrame (.downConfigStage version.document) sent = false) :
      Turn now rows connection (.deliver sent) rows
        ⟨{ connection.session with ended := true },mailbox⟩
  | greets {sent : Bool} {session : Session} (first : connection.session.greeted = false)
      (staging : session.staging = connection.session.staging)
      (pending : session.pending = connection.session.pending ∨
        ∃ version committed, awaitingConfirmation rows = some version ∧
          version.committedAt = some committed ∧ now ≤ committed+confirmDeadlineSecs ∧
          session.pending = some (.confirm,version.generation))
      (greeted : session.greeted)
      (owed : ∀ version committed, awaitingConfirmation rows = some version →
        version.committedAt = some committed → now ≤ committed+confirmDeadlineSecs → sent →
        session.pending = some (.confirm,version.generation))
      (ended : session.ended → sent = false) :
      Turn now rows connection (.hello sent) rows ⟨session,connection.mailbox⟩
  | again {sent : Bool} (second : connection.session.greeted) :
      Turn now rows connection (.hello sent) rows
        ⟨{ connection.session with ended := true },connection.mailbox⟩
  | early {line : List Octet} {sent : Bool} (first : connection.session.greeted = false) :
      Turn now rows connection (.line line sent) rows
        ⟨{ connection.session with ended := true },connection.mailbox⟩
  | unknown {line : List Octet} {sent : Bool} {session : Session} {generation : ℕ}
      (asked : connection.session.staging = some generation ∨
        ∃ step, connection.session.pending = some (step,generation))
      (missing : ¬ Known rows generation) (ended : session.ended) :
      Turn now rows connection (.line line sent) rows ⟨session,connection.mailbox⟩
  | verdict {line : List Octet} {sent : Bool} {session : Session} {generation : ℕ}
      (asked : connection.session.staging = some generation)
      (greeted : connection.session.greeted) (staging : session.staging = none)
      (pending : session.pending = connection.session.pending ∨
        session.pending = some (.commit,generation))
      (ended : session.ended → sent = false) :
      Turn now rows connection (.line line sent)
        (recordedRows rows .stage generation line now) ⟨session,connection.mailbox⟩
  | settles {line : List Octet} {sent : Bool} {step : Step} {generation : ℕ}
      (free : connection.session.staging = none)
      (asked : connection.session.pending = some (step,generation)) (other : step ≠ .stage) :
      Turn now rows connection (.line line sent) (recordedRows rows step generation line now)
        ⟨{ connection.session with pending := none },connection.mailbox⟩
  | unasked {line : List Octet} {sent : Bool} {session : Session}
      (asked : ∀ step generation, connection.session.pending = some (step,generation) →
        step = .stage ∨ ¬ Known rows generation)
      (free : connection.session.staging = none)
      (staging : session.staging = connection.session.staging)
      (pending : session.pending = none)
      (ended : session.ended = connection.session.ended) :
      Turn now rows connection (.line line sent) rows ⟨session,connection.mailbox⟩
  | counts {session : Session}
      (staging : session.staging = connection.session.staging)
      (pending : session.pending = connection.session.pending)
      (ended : session.ended → connection.session.greeted = false) :
      Turn now rows connection .other rows ⟨session,connection.mailbox⟩
  | closes :
      Turn now rows connection .closed rows
        ⟨{ connection.session with ended := true },connection.mailbox⟩

/-- What an exchange comes to is one of an action's turns. -/
abbrev Comes (now : ℕ) (rows : List ConfigurationVersion) (connection : Connection)
    (action : Action) (after : Exchange) : Prop :=
  Turn now rows connection action after.rows ⟨after.session,after.mailbox⟩

theorem sendFrame_commit (generation : ℕ) (s : Bool) :
    sendFrame (.downConfigCommit generation confirmDeadlineSecs) s = s := by
  cases s with
  | false => rw [sendFrame,Bool.and_false]
  | true => rfl

theorem sendFrame_confirm (generation : ℕ) (s : Bool) :
    sendFrame (.downCommitConfirm generation) s = s := by
  cases s with
  | false => rw [sendFrame,Bool.and_false]
  | true => rfl

variable {rows : List ConfigurationVersion} {generation now : ℕ} {l : List Octet} {row :
  ConfigurationVersion}

theorem advance_unknown
    (h : ¬ Known rows generation) (change : ConfigurationVersion → ConfigurationVersion) :
    advance rows generation change = none := by
  rw [advance,if_neg]
  simp only [List.any_eq_true,decide_eq_true_eq]
  exact h

section Turns

variable (rs : List Octet → Bool) (now : ℕ) (rows : List ConfigurationVersion)
  {cn : Connection}

theorem turn_deliver (hl : cn.session.ended = false) (s : Bool) : Comes now rows cn (.deliver s)
      (turn rs now (cn.over rows) (.deliver s)) := by
  obtain ⟨session,mailbox⟩ := cn
  cases mailbox with
  | nil => exact .waits rfl
  | cons v mailbox =>
    have ht : turn rs now (Connection.over ⟨session,v::mailbox⟩ rows)
        (.deliver s) = Exchange.stage ⟨session,rows,[],mailbox,[]⟩ v s :=
      if_neg (Bool.eq_false_iff.mp hl)
    rw [ht,Exchange.stage]
    split_ifs with hb hs
    · exact .drops rfl hb
    · rw [Option.not_isSome_iff_eq_none] at hb
      exact .stages rfl hb
    · exact .unsent rfl (Bool.eq_false_iff.mpr hs)

variable {session : Session} {mailbox : List ConfigurationVersion}

theorem turn_greeted (hlv : session.ended = false) (hf : session.greeted = false) (s : Bool) :
    Comes now rows ⟨session,mailbox⟩ (.hello s)
      (Exchange.greeted ⟨{ session with greeted := true },rows,[],mailbox,[]⟩ now s) := by
  have hopen : ∀ {P : Prop}, session.ended → P := fun he => nomatch hlv.symm.trans he
  unfold Exchange.greeted
  split
  · rename_i hn
    exact .greets hf rfl (.inl rfl) rfl
      (fun v c hsm => nomatch hn.symm.trans hsm) hopen
  · rename_i v ha
    split
    · rename_i hn
      refine .greets hf rfl (.inl rfl) rfl (fun o c ho hc => ?_) hopen
      cases ha.symm.trans ho
      cases hn.symm.trans hc
    · rename_i c hc
      simp only [Exchange.confirm,sendFrame_confirm]
      split_ifs with hd hs
      · refine .greets hf rfl (.inr ⟨v,c,ha,hc,hd,rfl⟩) rfl
          (fun o at_ ho _ _ _ => ?_) hopen
        cases ha.symm.trans ho
        rfl
      · exact .greets hf rfl (.inl rfl) rfl (fun _ _ _ _ _ ht => absurd ht hs)
          fun _ => Bool.eq_false_iff.mpr hs
      · refine .greets hf rfl (.inl rfl) rfl (fun o at_ ho hat hl => ?_) hopen
        cases ha.symm.trans ho
        cases hc.symm.trans hat
        exact absurd hl hd

theorem turn_hello (hl : cn.session.ended = false) (s : Bool) : Comes now rows cn (.hello s)
      (turn rs now (cn.over rows) (.hello s)) := by
  have ht : turn rs now (cn.over rows) (.hello s) =
      if cn.session.greeted then (cn.over rows).close
      else Exchange.greeted ⟨{ cn.session with greeted := true },rows,[],
        cn.mailbox,[]⟩ now s := if_neg (Bool.eq_false_iff.mp hl)
  rw [ht]
  split_ifs with hs
  · exact .again hs
  · exact turn_greeted now rows hl (Bool.eq_false_iff.mpr hs) s

theorem turn_validated (hl : session.ended = false) (hg : session.greeted) {generation : ℕ}
    (hs : session.staging = some generation) (ln : List Octet) (s : Bool) :
    Comes now rows ⟨session,mailbox⟩ (.line ln s)
      (Exchange.validated ⟨{ session with staging := none },rows,[],mailbox,[]⟩ generation
        ln now s) := by
  by_cases hk : Known rows generation
  · obtain ⟨st,hv⟩ := @validated_recorded
      ⟨{ session with staging := none },rows,[],mailbox,[]⟩ generation hk ln now s
    rw [hv]
    simp only [Exchange.commit,sendFrame_commit]
    split_ifs with ha hsn
    · exact .verdict hs hg rfl (.inr rfl) fun he =>
        nomatch hl.symm.trans he
    · exact .verdict hs hg rfl (.inl rfl) fun _ => Bool.eq_false_iff.mpr hsn
    · exact .verdict hs hg rfl (.inl rfl) fun he =>
        nomatch hl.symm.trans he
  · rw [Exchange.validated,advance_unknown hk]
    exact .unknown (.inl hs) hk rfl

theorem turn_settled (ht : session.staging = none) {st : Step} {generation : ℕ}
    (hp : session.pending = some (st,generation)) (ln : List Octet) (s : Bool) :
    Comes now rows ⟨session,mailbox⟩ (.line ln s)
      (Exchange.settled ⟨{ session with pending := none },rows,[],mailbox,[]⟩ st generation
        ln now) := by
  by_cases hs : st = .stage
  · subst hs
    simp only [Exchange.settled,reduceCtorEq,false_and,if_false]
    refine .unasked (fun st o ho => ?_) ht rfl rfl rfl
    cases hp.symm.trans ho
    exact .inl rfl
  by_cases hk : Known rows generation
  · have hse := @settled_recorded ⟨{ session with pending := none },rows,[],mailbox,[]⟩
      st hs generation hk ln now
    rw [hse]
    exact .settles ht hp hs
  · simp only [Exchange.settled,advance_unknown hk]
    split_ifs
    · exact .unknown (.inr ⟨st,hp⟩) hk rfl
    · exact .unknown (.inr ⟨st,hp⟩) hk rfl
    · refine .unasked (fun a o ho => ?_) ht rfl rfl rfl
      cases hp.symm.trans ho
      exact .inr hk

theorem turn_line (hl : cn.session.ended = false) (ln : List Octet) (s : Bool) :
    Comes now rows cn (.line ln s) (turn rs now (cn.over rows) (.line ln s)) := by
  cases hg : cn.session.greeted with
  | false =>
    have ht : turn rs now (cn.over rows) (.line ln s) =
        (cn.over rows).close := if_pos (by simp [Connection.over,hg])
    rw [ht]
    exact .early hg
  | true =>
    have ht : turn rs now (cn.over rows) (.line ln s) =
        (cn.over rows).result ln now s :=
      if_neg (by simp [Connection.over,hg])
    rw [ht,Exchange.result]
    split
    · rename_i generation hs
      exact turn_validated now rows hl hg hs ln s
    · rename_i hs
      split
      · rename_i step generation hp
        exact turn_settled now rows hs hp ln s
      · rename_i hp
        exact .unasked (fun _ _ hsm => by cases hp.symm.trans hsm) hs rfl hp rfl

theorem turn_cases (hl : cn.session.ended = false) (a : Action) :
    Comes now rows cn a (turn rs now (cn.over rows) a) := by
  cases a with
  | deliver s => exact turn_deliver rs now rows hl s
  | hello s => exact turn_hello rs now rows hl s
  | line l s => exact turn_line rs now rows hl l s
  | other =>
    have ht : turn rs now (cn.over rows) .other =
        if !cn.session.greeted then (cn.over rows).close
        else { cn.over rows with
          session := { cn.session with
            unanswered := cn.session.unanswered+1 } } :=
      if_neg (Bool.eq_false_iff.mp hl)
    rw [ht]
    split_ifs with hu
    · exact .counts rfl rfl fun _ => by simpa using hu
    · exact .counts rfl rfl fun he => nomatch hl.symm.trans he
  | closed => exact .closes

end Turns

/-! ### No version is left behind -/

/-- Staged, with no verdict. -/
def Staging (row : ConfigurationVersion) : Prop :=
  row.stagedAt.isSome ∧ row.validatedAt = none ∧ row.confirmedAt = none

/-- Committed at an instant, and not confirmed. -/
def Provisional (row : ConfigurationVersion) (committed : ℕ) : Prop :=
  row.committedAt = some committed ∧ row.confirmedAt = none

/-- Every version without a verdict is held by the registered session, and every commit
without a confirmation can still be confirmed. -/
structure Sound (server : Server) : Prop where
  registered : ∀ index, server.registered = some index →
    ∃ connection, server.connections index = some connection ∧ connection.session.ended = false
  fresh : ∀ index, server.opened ≤ index → server.connections index = none
  idle : ∀ index connection, server.connections index = some connection →
    connection.session.ended = false → server.registered ≠ some index → connection.held = []
  known : ∀ index connection, server.connections index = some connection →
    (∀ generation ∈ connection.held, Known server.rows generation) ∧
      ∀ step generation, connection.session.pending = some (step,generation) →
        Known server.rows generation
  bounded : ∀ index connection, server.connections index = some connection →
    ∀ version ∈ connection.mailbox, version.document.length ≤ maximumBytes
  admitted : ∀ document ∈ server.admitted, document.length ≤ maximumBytes
  staging : ∀ row ∈ server.rows, Staging row → ∃ index connection,
    server.registered = some index ∧ server.connections index = some connection ∧
      row.generation ∈ connection.held
  provisional : ∀ row ∈ server.rows, ∀ committed, Provisional row committed →
    server.now ≤ committed+confirmDeadlineSecs

theorem sound_start (document : List Octet) (now : ℕ) : Sound (start document now) where
  registered := nofun
  fresh _ _ := rfl
  idle := nofun
  known := nofun
  bounded := nofun
  admitted := nofun
  staging := by
    rintro row hr ⟨hs,-⟩
    cases List.mem_singleton.mp hr
    cases hs
  provisional := by
    rintro row hr c ⟨hc,-⟩
    cases List.mem_singleton.mp hr
    cases hc

theorem turned_cases {self : Server} {ind : ℕ} {a : Connection} {o : ℕ} {f : Connection}
    (h : (self.turned ind rows a).connections o = some f) :
    (o = ind ∧ f = a) ∨ (o ≠ ind ∧ self.connections o = some f) := by
  rcases eq_or_ne o ind with rfl | hn
  · cases (update_self _ _ _).symm.trans h
    exact .inl ⟨rfl,rfl⟩
  · exact .inr ⟨hn,(update_of_ne hn _ _).symm.trans h⟩

/-- What a connection's action has to leave for the server to be sound after it. -/
theorem Sound.turned {self : Server} (h : Sound self) {id : ℕ} {c : Connection}
    (hf : self.connections id = some c)
    (hl : c.session.ended = false)
    {after : Connection} (hk : ∀ generation, Known self.rows generation → Known rows generation)
    (hh : after.held ⊆ c.held) (hml : after.mailbox ⊆ c.mailbox)
    (hp : ∀ s generation, after.session.pending = some (s,generation) →
      Known rows generation)
    (ht : ∀ row ∈ rows, Staging row →
      (∃ old ∈ self.rows, Staging old ∧ old.generation = row.generation) ∧
        (row.generation ∈ c.held →
          after.session.ended = false ∧ row.generation ∈ after.held))
    (hpr : ∀ row ∈ rows, ∀ cm, Provisional row cm →
      (∃ old ∈ self.rows, Provisional old cm) ∨ cm = self.now) :
    Sound (self.turned id rows after) := by
  have hot : ∀ {other : ℕ}, other ≠ id →
      (self.turned id rows after).connections other = self.connections other :=
    fun hn => update_of_ne hn _ _
  have hsl : (self.turned id rows after).connections id = some after :=
    update_self _ _ _
  have hkp : ∀ {other : ℕ}, (self.turned id rows after).registered = some other →
      self.registered = some other ∧ (other = id → after.session.ended = false) := by
    intro other hr
    simp only [Server.turned] at hr
    split_ifs at hr with hgo
    refine ⟨hr,?_⟩
    rintro rfl
    exact Bool.eq_false_iff.mpr fun he => hgo ⟨he,hr⟩
  have hst : ∀ {other : ℕ}, self.registered = some other →
      (other = id → after.session.ended = false) →
      (self.turned id rows after).registered = some other := by
    intro other hr ho
    rw [Server.turned,if_neg,hr]
    rintro ⟨he,hs⟩
    cases hr.symm.trans hs
    exact absurd he (Bool.eq_false_iff.mp (ho rfl))
  refine ⟨?_,?_,?_,?_,?_,h.admitted,?_,?_⟩
  · intro other hr
    obtain ⟨hw,ho⟩ := hkp hr
    rcases eq_or_ne other id with rfl | hn
    · exact ⟨after,hsl,ho rfl⟩
    · rw [hot hn]
      exact h.registered other hw
  · intro other hun
    have hnn := h.fresh other hun
    rw [hot]
    · exact hnn
    · rintro rfl
      cases hnn.symm.trans hf
  · intro other f hc ho hu
    rcases turned_cases hc with ⟨rfl,rfl⟩ | ⟨hn,hc⟩
    · have hnn : c.held = [] := by
        refine h.idle other c hf hl fun hw => hu ?_
        exact hst hw fun _ => ho
      exact List.eq_nil_of_subset_nil (hnn ▸ hh)
    · refine h.idle other f hc ho fun hw => hu ?_
      exact hst hw fun hs => absurd hs hn
  · intro other f hc
    rcases turned_cases hc with ⟨rfl,rfl⟩ | ⟨-,hc⟩
    · exact ⟨fun generation hg =>
        hk _ ((h.known other c hf).1 generation (hh hg)),hp⟩
    · obtain ⟨hgn,hre⟩ := h.known other f hc
      exact ⟨fun generation hg => hk _ (hgn generation hg),
        fun s generation hrq => hk _ (hre s generation hrq)⟩
  · intro other f hc v hv
    rcases turned_cases hc with ⟨rfl,rfl⟩ | ⟨-,hc⟩
    · exact h.bounded other c hf v (hml hv)
    · exact h.bounded other f hc v hv
  · intro row hrw hrowS
    obtain ⟨⟨old,hx,hd,hg⟩,ha⟩ := ht row hrw hrowS
    obtain ⟨other,f,hr,hc,hm⟩ := h.staging old hx hd
    rw [hg] at hm
    rcases eq_or_ne other id with rfl | hn
    · cases hf.symm.trans hc
      obtain ⟨ho,hsti⟩ := ha hm
      exact ⟨other,after,hst hr fun _ => ho,hsl,hsti⟩
    · exact ⟨other,f,hst hr fun hs => absurd hs hn,
        (hot hn).trans hc,hm⟩
  · intro row hrw cm hro
    rcases hpr row hrw cm hro with ⟨old,hx,hw⟩ | rfl
    · exact h.provisional old hx cm hw
    · exact Nat.le_add_right _ _

theorem recorded_staging {s : Step}
    (h : Staging (recorded s l now row)) : s ≠ .stage ∧ Staging row := by
  cases s with
  | stage => cases h.2.1
  | commit =>
    refine ⟨Step.noConfusion,?_⟩
    simp only [recorded] at h
    split_ifs at h <;> exact h
  | confirm =>
    refine ⟨Step.noConfusion,?_⟩
    simp only [recorded] at h
    split_ifs at h
    · cases h.2.2
    · exact h

theorem recorded_provisional {s : Step} {c : ℕ} (h : Provisional (recorded s l now row) c) :
    Provisional row c ∨ c = now := by
  cases s with
  | stage => exact .inl h
  | commit =>
    simp only [recorded] at h
    split_ifs at h
    · exact .inr (Option.some.inj h.1).symm
    · exact .inl h
  | confirm =>
    simp only [recorded] at h
    split_ifs at h
    · cases h.2
    · exact .inl h

/-- A version left without a verdict by a line was without one before, and the line was not
its verdict. -/
theorem recordedRows_staging {s : Step}
    (hr : row ∈ recordedRows rows s generation l now) (h : Staging row) :
    (∃ old ∈ rows, Staging old ∧ old.generation = row.generation) ∧
      (s = .stage → row.generation ≠ generation) := by
  obtain ⟨old,hl,rfl⟩ := List.mem_map.mp hr
  split_ifs at h ⊢ with hs
  · obtain ⟨ht,hg⟩ := recorded_staging h
    exact ⟨⟨old,hl,hg,(generation_recorded _ _ _ _).symm⟩,fun hst =>
      absurd hst ht⟩
  · exact ⟨⟨old,hl,h,rfl⟩,fun _ => hs⟩

theorem recordedRows_provisional {s : Step} {c : ℕ}
    (hr : row ∈ recordedRows rows s generation l now) (h : Provisional row c) :
    (∃ old ∈ rows, Provisional old c) ∨ c = now := by
  obtain ⟨old,hl,rfl⟩ := List.mem_map.mp hr
  split_ifs at h
  · exact (recorded_provisional h).imp (fun hw => ⟨old,hl,hw⟩) id
  · exact .inl ⟨old,hl,h⟩

theorem sendFrame_stage {document : List Octet} (h : document.length ≤ maximumBytes) :
    sendFrame (.downConfigStage document) true := by
  have hd : ¬ document.length > ServerFrames.maxDocumentLength := by
    rw [show ServerFrames.maxDocumentLength = maximumBytes from rfl]
    omega
  have hp : ¬ document.length > ServerFrames.maxPayloadLength := by
    have : maximumBytes ≤ ServerFrames.maxPayloadLength := by decide
    omega
  have hw : ServerFrames.payload (.downConfigStage document) = .ok document :=
    if_neg hd
  have he : ServerFrames.encode .server (.downConfigStage document) =
      .ok (ByteLayouts.toBe 4 document.length ++
        [ServerFrames.typeByte .downConfigStage,0,0,0]++document) := by
    rw [ServerFrames.encode,hw]
    exact if_neg hp
  rw [sendFrame,he]
  rfl

section Acts

variable {self : Server} {i : ℕ} {cn : Connection}

/-- An action that leaves the versions as they are and goes on holding what was held, or ends
a session that held nothing. -/
theorem Sound.quiet (h : Sound self) (hf : self.connections i = some cn)
    (hl : cn.session.ended = false) {a : Connection}
    (hh : a.held = cn.held) (hml : a.mailbox ⊆ cn.mailbox)
    (hp : ∀ s generation, a.session.pending = some (s,generation) → Known self.rows generation)
    (hen : a.session.ended → cn.held = []) :
    Sound (self.turned i self.rows a) := by
  refine h.turned hf hl (fun _ hk => hk) (fun _ hm => hh ▸ hm) hml hp
    (fun row hr hs => ⟨⟨row,hr,hs,rfl⟩,fun hm => ⟨?_,hh ▸ hm⟩⟩)
    fun row hr c hpr => .inl ⟨row,hr,hpr⟩
  refine Bool.eq_false_iff.mpr fun he => ?_
  rw [hen he] at hm
  cases hm

theorem held_eq {session o : Session} {mailbox : List ConfigurationVersion}
    (h : session.staging = o.staging) :
    Connection.held ⟨session,mailbox⟩ = Connection.held ⟨o,mailbox⟩ := by
  rw [Connection.held,Connection.held,h]

theorem Sound.turn (h : Sound self) (hf : self.connections i = some cn)
    (hl : cn.session.ended = false) {ac : Action}
    (hk : self.Kept (.acts i ac)) {rows : List ConfigurationVersion}
    {af : Connection} (ht : Turn self.now self.rows cn ac rows af) :
    Sound (self.turned i rows af) := by
  have hk := hk cn hf
  have hp := (h.known i cn hf).2
  have ho : ∀ {P : Prop}, cn.session.ended → P :=
    fun he => nomatch hl.symm.trans he
  cases ht with
  | waits em =>
    exact h.quiet hf hl rfl (List.Subset.refl _) hp ho
  | stages n f =>
    refine h.quiet hf hl ?_ (n ▸ List.subset_cons_self _ _) hp ho
    rw [Connection.held,Connection.held,n,f]
    rfl
  | drops n b =>
    rw [hk.1] at b
    cases b
  | @unsent sn v mailbox n rf =>
    have hb := h.bounded i cn hf v (n ▸ mem_cons_self)
    rw [hk.2,sendFrame_stage hb] at rf
    cases rf
  | greets first s p g ow e =>
    refine h.quiet hf hl (held_eq s) (List.Subset.refl _) ?_ fun he =>
      hk.resolve_right fun hsn => nomatch (e he).symm.trans hsn.2
    intro st generation hr
    rcases p with hsm | ⟨v,-,haw,-,-,hcn⟩
    · exact hp st generation (hsm ▸ hr)
    · cases hcn.symm.trans hr
      exact ⟨v,awaitingConfirmation_mem haw,rfl⟩
  | again sc =>
    exact h.quiet hf hl rfl (List.Subset.refl _) hp fun _ =>
      hk.resolve_right fun hfs => nomatch hfs.1.symm.trans sc
  | early first =>
    exact h.quiet hf hl rfl (List.Subset.refl _) hp fun _ =>
      hk.resolve_right fun hg => nomatch first.symm.trans hg.1
  | unknown ask m e =>
    rcases ask with hs | ⟨st,hr⟩
    · refine absurd ((h.known i cn hf).1 _ ?_) m
      rw [Connection.held,hs]
      exact mem_cons_self
    · exact absurd (hp _ _ hr) m
  | @verdict l sn session generation ask g s p e =>
    have hh : cn.held = generation::cn.mailbox.map (·.generation) := by
      rw [Connection.held,ask]
      rfl
    have ha : Connection.held ⟨session,cn.mailbox⟩ =
        cn.mailbox.map (·.generation) := by
      rw [Connection.held,s]
      rfl
    have hkn : Known self.rows generation :=
      (h.known i cn hf).1 generation (hh ▸ mem_cons_self)
    refine h.turned hf hl (fun _ hw => hw.recordedRows _ _ _ _) ?_
      (List.Subset.refl _) ?_ ?_ fun row hrw c => recordedRows_provisional hrw
    · rw [ha,hh]
      exact List.subset_cons_self _ _
    · intro st r hr
      rcases p with hsm | hc
      · exact (hp st r (hsm ▸ hr)).recordedRows _ _ _ _
      · cases hc.symm.trans hr
        exact hkn.recordedRows _ _ _ _
    · intro row hrw hs
      obtain ⟨hd,hn⟩ := recordedRows_staging hrw hs
      refine ⟨hd,fun hm => ?_⟩
      rw [hh] at hm
      have hml := (List.mem_cons.mp hm).resolve_left (hn rfl)
      refine ⟨Bool.eq_false_iff.mpr fun he => ?_,ha ▸ hml⟩
      -- a session that could not send the commit held nothing but what it just answered
      rcases hk with hnn | ⟨-,hem | hsn⟩
      · cases hh.symm.trans hnn
      · rw [hem] at hml
        cases hml
      · cases (e he).symm.trans hsn
  | settles f ask o =>
    refine h.turned hf hl (fun _ hw => hw.recordedRows _ _ _ _) (List.Subset.refl _)
      (List.Subset.refl _) nofun ?_ fun row hrw c => recordedRows_provisional hrw
    intro row hrw hs
    exact ⟨(recordedRows_staging hrw hs).1,fun hm => ⟨hl,hm⟩⟩
  | unasked ask f s p e =>
    refine h.quiet hf hl (held_eq s) (List.Subset.refl _) ?_ fun he =>
      ho (e ▸ he)
    intro st generation hr
    cases p.symm.trans hr
  | counts s p e =>
    exact h.quiet hf hl (held_eq s) (List.Subset.refl _)
      (fun st generation hr => hp st generation (p ▸ hr))
      fun he => hk.resolve_right fun hg => nomatch (e he).symm.trans hg
  | closes => exact h.quiet hf hl rfl (List.Subset.refl _) hp fun _ => hk

theorem Sound.act (h : Sound self) (r : List Octet → Bool) {a : Action}
    (hk : self.Kept (.acts i a)) : Sound (self.act r i a) := by
  rw [Server.act]
  cases hf : self.connections i with
  | none => exact h
  | some cn =>
    simp only
    split_ifs with he
    · exact h
    · have hl := Bool.eq_false_iff.mpr he
      exact h.turn hf hl hk (turn_cases r self.now self.rows hl a)

end Acts

section Steps

variable {self : Server} {rs : List Octet → Bool}

theorem known_append {rows m : List ConfigurationVersion} {generation : ℕ}
    (h : Known rows generation) : Known (rows++m) generation := by
  obtain ⟨row,hr,hg⟩ := h
  exact ⟨row,List.mem_append_left _ hr,hg⟩

theorem post_cases (self : Server) {id : ℕ} {c : Connection}
    (hr : self.registered = some id)
    (hf : self.connections id = some c) (v : ConfigurationVersion) :
    self.post v id =
        some { c with mailbox := c.mailbox++[v] } ∧
      ∀ o, o ≠ id → self.post v o = self.connections o := by
  rw [post,hr]
  simp only [hf,Option.map_some]
  exact ⟨update_self _ _ _,fun o hn => update_of_ne hn _ _⟩

theorem held_concat (c : Connection) (v : ConfigurationVersion) :
    Connection.held { c with mailbox := c.mailbox++[v] } =
      c.held++[v.generation] := by
  rw [Connection.held,Connection.held,List.map_append,List.append_assoc]
  rfl

theorem Sound.insert (h : Sound self) (hr : self.registered.isSome)
    {v : ConfigurationVersion} (hb : v.document.length ≤ maximumBytes)
    (hfr : v.committedAt = none) {a : List (List Octet)}
    (ha : a ⊆ self.admitted) :
    Sound { self with
      rows := self.rows++[v], admitted := a, connections := self.post v } := by
  obtain ⟨i,hr⟩ := Option.isSome_iff_exists.mp hr
  obtain ⟨cn,hf,hlv⟩ := h.registered i hr
  obtain ⟨hs,ho⟩ := self.post_cases hr hf v
  have hh := held_concat cn v
  refine ⟨?_,?_,?_,?_,?_,fun o hm => h.admitted o (ha hm),?_,?_⟩
  · intro o hsm
    cases hr.symm.trans hsm
    exact ⟨_,hs,hlv⟩
  · intro o hun
    have hnn := h.fresh o hun
    refine (ho o ?_).trans hnn
    rintro rfl
    cases hnn.symm.trans hf
  · intro o f hc hx hu
    refine h.idle o f ((ho o ?_).symm.trans hc) hx hu
    rintro rfl
    exact hu hr
  · intro o f hc
    rcases eq_or_ne o i with rfl | hn
    · cases hs.symm.trans hc
      obtain ⟨hgn,hre⟩ := h.known o cn hf
      refine ⟨fun generation hg => ?_,fun s generation hrq =>
        known_append (hre s generation hrq)⟩
      rcases List.mem_append.mp (hh ▸ hg) with hd | hl
      · exact known_append (hgn generation hd)
      · exact ⟨v,List.mem_append_right _ mem_cons_self,(List.mem_singleton.mp hl).symm⟩
    · obtain ⟨hgn,hre⟩ :=
        h.known o f ((ho o hn).symm.trans hc)
      exact ⟨fun generation hg => known_append (hgn generation hg),
        fun s generation hrq => known_append (hre s generation hrq)⟩
  · intro o f hc
    rcases eq_or_ne o i with rfl | hn
    · cases hs.symm.trans hc
      intro p hps
      rcases List.mem_append.mp hps with hd | hl
      · exact h.bounded o cn hf p hd
      · rw [List.mem_singleton.mp hl]
        exact hb
    · exact h.bounded o f ((ho o hn).symm.trans hc)
  · intro row hrw hst
    refine ⟨i,_,hr,hs,?_⟩
    rw [hh]
    rcases List.mem_append.mp hrw with hd | hl
    · obtain ⟨o,f,hsm,hc,hm⟩ := h.staging row hd hst
      cases hr.symm.trans hsm
      cases hf.symm.trans hc
      exact List.mem_append_left _ hm
    · rw [List.mem_singleton.mp hl]
      exact List.mem_append_right _ mem_cons_self
  · intro row hrw c hp
    rcases List.mem_append.mp hrw with hd | hl
    · exact h.provisional row hd c hp
    · rw [List.mem_singleton.mp hl] at hp
      cases hfr.symm.trans hp.1

theorem Sound.connect (h : Sound self) : Sound (self.step rs .connect) := by
  have hnn : self.connections self.opened = none := h.fresh self.opened le_rfl
  have ho : ∀ {o : ℕ} {cn : Connection},
      self.connections o = some cn →
      (self.step rs .connect).connections o = some cn := by
    intro o cn hf
    refine (update_of_ne ?_ _ _).trans hf
    rintro rfl
    cases hnn.symm.trans hf
  have hr : ∀ {o : ℕ}, self.registered = some o →
      (self.step rs .connect).registered = some o := by
    intro o hw
    change self.registered.or (some self.opened) = some o
    rw [hw]
    rfl
  have hc : ∀ {o : ℕ} {cn : Connection},
      (self.step rs .connect).connections o = some cn →
      cn = ⟨.new,[]⟩ ∨ self.connections o = some cn := by
    intro o cn hf
    change update self.connections self.opened (some ⟨.new,[]⟩) o = _ at hf
    rcases eq_or_ne o self.opened with rfl | hn
    · rw [update_self] at hf
      exact .inl (Option.some.inj hf).symm
    · rw [update_of_ne hn] at hf
      exact .inr hf
  refine ⟨?_,?_,?_,?_,?_,h.admitted,?_,h.provisional⟩
  · intro o ha
    cases hw : self.registered with
    | some i =>
      cases (hr hw).symm.trans ha
      obtain ⟨cn,hf,hl⟩ := h.registered o hw
      exact ⟨cn,ho hf,hl⟩
    | none =>
      change self.registered.or (some self.opened) = some o at ha
      rw [hw] at ha
      cases ha
      exact ⟨_,update_self _ _ _,rfl⟩
  · intro o hu
    change self.opened+1 ≤ o at hu
    refine (update_of_ne ?_ _ _).trans (h.fresh o (by omega))
    omega
  · intro o cn hf hp hun
    rcases hc hf with rfl | hw
    · rfl
    · exact h.idle o cn hw hp fun hs => hun (hr hs)
  · intro o cn hf
    rcases hc hf with rfl | hw
    · exact ⟨nofun,nofun⟩
    · exact h.known o cn hw
  · intro o cn hf
    rcases hc hf with rfl | hw
    · exact nofun
    · exact h.bounded o cn hw
  · intro row hrw hst
    obtain ⟨o,cn,hw,hf,hm⟩ := h.staging row hrw hst
    exact ⟨o,cn,hr hw,ho hf,hm⟩

theorem Sound.step (h : Sound self) {e : Event} (hk : self.Kept e) : Sound (self.step rs e) := by
  cases e with
  | check document =>
    rw [Server.step]
    split_ifs with hv
    · refine { h with admitted := fun o ho => ?_ }
      rcases List.mem_cons.mp ho with rfl | hl
      · simp only [validate,Bool.and_eq_true,decide_eq_true_eq] at hv
        exact hv.1.1
      · exact h.admitted o hl
    · exact h
  | insert document =>
    rw [Server.step]
    split_ifs with ha
    · exact h.insert hk (h.admitted document ha) rfl List.erase_subset
    · exact h
  | connect => exact h.connect
  | acts i a => exact h.act rs hk
  | tick s =>
    exact { h with provisional := fun row hr c hp => hk row hr c hp.1 hp.2 }

end Steps

/-! ### What leads out of a sound state -/

/-- The lines an appliance answers with. -/
def refusedLine : List Octet := ascii "outcome=refused"

def confirmedLine : List Octet := ascii "outcome=confirmed"

/-- A sound server with a connection open. -/
structure Serving (server : Server) (index : ℕ) (connection : Connection) : Prop where
  sound : Sound server
  found : server.connections index = some connection
  live : connection.session.ended = false

section Recovery

variable {self : Server} {rs : List Octet → Bool} {i : ℕ} {cn : Connection}

section

variable (h : Serving self i cn) (rs)

include h

/-- An action that loses nothing comes to one of its turns, and the server serves on unless it
ended the connection. -/
theorem Serving.acts {a : Action} (hk : self.Kept (.acts i a)) :
    ∃ rows af, Turn self.now self.rows cn a rows af ∧ (self.step rs (.acts i a)).rows = rows ∧
      (af.session.ended = false → Serving (self.step rs (.acts i a)) i af ∧
        (self.step rs (.acts i a)).registered = self.registered) := by
  have hs : Sound (self.step rs (.acts i a)) := h.sound.step hk
  have ha : self.step rs (.acts i a) = self.turned i
      (Server.turn rs self.now (cn.over self.rows) a).rows
      ⟨(Server.turn rs self.now (cn.over self.rows) a).session,
        (Server.turn rs self.now (cn.over self.rows) a).mailbox⟩ := by
    change self.act rs i a = _
    rw [Server.act,h.found]
    exact if_neg (Bool.eq_false_iff.mp h.live)
  refine ⟨_,_,turn_cases rs self.now self.rows h.live a,congrArg Server.rows ha,
    fun hl => ?_⟩
  rw [ha] at hs ⊢
  refine ⟨⟨hs,update_self _ _ _,hl⟩,?_⟩
  rw [Server.turned,if_neg]
  exact fun he => absurd he.1 (Bool.eq_false_iff.mp hl)

theorem Serving.hello (hf : cn.session.greeted = false) :
    ∃ a, Serving (self.step rs (.acts i (.hello true))) i a ∧
      (self.step rs (.acts i (.hello true))).registered = self.registered ∧
      (self.step rs (.acts i (.hello true))).rows = self.rows ∧
      a.session.greeted ∧ a.session.staging = cn.session.staging ∧
      a.mailbox = cn.mailbox ∧
      ∀ v c, awaitingConfirmation self.rows = some v →
        v.committedAt = some c → self.now ≤ c+confirmDeadlineSecs →
        a.session.pending = some (.confirm,v.generation) := by
  have hk : self.Kept (.acts i (.hello true)) := by
    intro f hfn
    cases h.found.symm.trans hfn
    exact .inr ⟨hf,rfl⟩
  obtain ⟨rows,a,ht,hrw,hs⟩ := h.acts rs hk
  cases ht with
  | greets first s p g o e =>
    obtain ⟨ha,hr⟩ := hs (Bool.eq_false_iff.mpr fun he => nomatch e he)
    exact ⟨_,ha,hr,hrw,g,s,rfl,fun v c hsm hat hd =>
      o v c hsm hat hd rfl⟩
  | again sc => cases hf.symm.trans sc

theorem Serving.deliver (hf : cn.session.staging = none) (hw : cn.mailbox ≠ []) :
    ∃ a, Serving (self.step rs (.acts i (.deliver true))) i a ∧
      (self.step rs (.acts i (.deliver true))).registered = self.registered ∧
      a.session.greeted = cn.session.greeted ∧ a.session.staging.isSome ∧
      a.held = cn.held := by
  have hk : self.Kept (.acts i (.deliver true)) := by
    intro fn hfn
    cases h.found.symm.trans hfn
    exact ⟨hf,rfl⟩
  obtain ⟨rows,a,ht,-,hs⟩ := h.acts rs hk
  cases ht with
  | waits e => exact absurd e hw
  | @stages _ v mailbox n f =>
    obtain ⟨ha,hr⟩ := hs h.live
    refine ⟨_,ha,hr,rfl,rfl,?_⟩
    rw [Connection.held,Connection.held,n,f]
    rfl
  | drops n b =>
    rw [hf] at b
    cases b
  | @unsent _ v mailbox n r =>
    have hb := h.sound.bounded i cn h.found v (n ▸ mem_cons_self)
    rw [sendFrame_stage hb] at r
    cases r

theorem Serving.refuses (hg : cn.session.greeted) (hs : cn.session.staging.isSome) :
    ∃ a, Serving (self.step rs (.acts i (.line refusedLine true))) i a ∧
      (self.step rs (.acts i (.line refusedLine true))).registered = self.registered ∧
      a.held.length < cn.held.length := by
  obtain ⟨generation,hs⟩ := Option.isSome_iff_exists.mp hs
  have hk : self.Kept (.acts i (.line refusedLine true)) := by
    intro fn hf
    cases h.found.symm.trans hf
    exact .inr ⟨hg,.inr rfl⟩
  obtain ⟨hgn,hre⟩ := h.sound.known i cn h.found
  obtain ⟨rows,a,ht,-,hsr⟩ := h.acts rs hk
  cases ht with
  | early first => cases first.symm.trans hg
  | unknown ask m e =>
    rcases ask with hx | ⟨st,hrq⟩
    · refine absurd (hgn _ ?_) m
      rw [Connection.held,hx]
      exact mem_cons_self
    · exact absurd (hre _ _ hrq) m
  | verdict ask g s p e =>
    obtain ⟨ha,hr⟩ := hsr (Bool.eq_false_iff.mpr fun he => nomatch e he)
    refine ⟨_,ha,hr,?_⟩
    rw [Connection.held,Connection.held,s,hs]
    exact Nat.lt_succ_self _
  | settles f ask other
  | unasked ask f s p e => cases f.symm.trans hs

/-- A session that was greeted can be brought to owe one verdict less. -/
theorem Serving.owes_less (hg : cn.session.greeted) (hh : cn.held ≠ []) :
    Leads (Server.step rs) self fun l => ∃ a, Serving l i a ∧
      l.registered = self.registered ∧ a.held.length < cn.held.length := by
  cases hs : cn.session.staging with
  | some generation =>
    obtain ⟨a,ha,hr,hl⟩ :=
      h.refuses rs hg (Option.isSome_iff_exists.mpr ⟨generation,hs⟩)
    exact .cons (.acts i (.line refusedLine true)) (.here ⟨a,ha,hr,hl⟩)
  | none =>
    have hw : cn.mailbox ≠ [] := by
      intro he
      rw [Connection.held,hs,he] at hh
      exact hh rfl
    obtain ⟨s,hsn,hr,hst,hso,hsm⟩ := h.deliver rs hs hw
    obtain ⟨a,ha,hlt,hl⟩ := hsn.refuses rs (hst.trans hg) hso
    exact .cons (.acts i (.deliver true)) (.cons (.acts i (.line refusedLine true))
      (.here ⟨a,ha,hlt.trans hr,hsm ▸ hl⟩))

end

/-- Every document a session was asked to stage can be brought to a verdict. -/
theorem Serving.drain (h : Serving self i cn) (r : List Octet → Bool) :
    Leads (Server.step r) self fun l => ∃ af, Serving l i af ∧
      l.registered = self.registered ∧ af.held = [] := by
  -- by the number of verdicts owed; a greeting that is still to come is no more than a step
  induction hcount : cn.held.length using Nat.strong_induction_on
    generalizing self cn with
  | _ c ih =>
    subst hcount
    by_cases hh : cn.held = []
    · exact .here ⟨cn,h,rfl,hh⟩
    have hf : ∀ {s : Server} {he : Connection}, Serving s i he →
        he.session.greeted → he.held = cn.held →
        s.registered = self.registered →
        Leads (Server.step r) s fun l => ∃ af, Serving l i af ∧
          l.registered = self.registered ∧ af.held = [] := by
      intro s he hsr hg hs hr
      refine (hsr.owes_less r hg (hs ▸ hh)).trans ?_
      rintro l ⟨af,ha,hlt,hls⟩
      refine (ih _ (hs ▸ hls) ha rfl).trans ?_
      rintro ls ⟨f,hfn,hl,hn⟩
      exact .here ⟨f,hfn,hl.trans (hlt.trans hr),hn⟩
    cases hg : cn.session.greeted with
    | true => exact hf h hg rfl rfl
    | false =>
      obtain ⟨af,ha,hr,-,hnw,hst,hm,-⟩ := h.hello r hg
      refine .cons (.acts i (.hello true)) (hf ha hnw ?_ hr)
      rw [Connection.held,Connection.held,hst,hm]

/-- A version whose commit is not confirmed. -/
def owed (row : ConfigurationVersion) : Bool := row.committedAt.isSome && row.confirmedAt.isNone

variable {rows : List ConfigurationVersion}

theorem awaitingConfirmation_owed
    {v : ConfigurationVersion} (h : awaitingConfirmation rows = some v) :
    owed v := by
  have hs : awaitingConfirmation (rows.filter owed) = awaitingConfirmation rows := by
    rw [awaitingConfirmation,awaitingConfirmation,List.filter_filter]
    simp only [owed,Bool.and_self]
  exact (List.mem_filter.mp (awaitingConfirmation_mem (hs.trans h))).2

theorem awaitingConfirmation_none
    (h : awaitingConfirmation rows = none) {row : ConfigurationVersion} (hr : row ∈ rows) :
    owed row = false := by
  have hk : ∀ (f : Option ConfigurationVersion → ConfigurationVersion → Option _)
      (_ : ∀ n row, (f (some n) row).isSome) (rows : List _) (n), (rows.foldl f (some n)).isSome := by
    intro f hf rows
    induction rows with
    | nil => exact fun _ => rfl
    | cons row rows ih =>
      intro n
      obtain ⟨m,hm⟩ := Option.isSome_iff_exists.mp (hf n row)
      rw [List.foldl_cons,hm]
      exact ih m
  refine Bool.eq_false_iff.mpr fun ho => ?_
  have hm : row ∈ rows.filter fun row => row.committedAt.isSome && row.confirmedAt.isNone :=
    List.mem_filter.mpr ⟨hr,ho⟩
  rw [awaitingConfirmation] at h
  cases hf : rows.filter fun row => row.committedAt.isSome && row.confirmedAt.isNone with
  | nil =>
    rw [hf] at hm
    cases hm
  | cons first os =>
    rw [hf,List.foldl_cons] at h
    refine Bool.noConfusion ((congrArg Option.isSome h).symm.trans (hk _ ?_ os first))
    intro n row
    dsimp only
    split_ifs <;> rfl

/-- A confirmation leaves one version less that is owed one. -/
theorem owed_confirmed {v : ConfigurationVersion} (hv : v ∈ rows) (ho : owed v) (now : ℕ) :
    (recordedRows rows .confirm v.generation confirmedLine now).countP owed < rows.countP owed := by
  have hc : ∀ row, recorded .confirm confirmedLine now row =
      configurationConfirmed now row := by
    intro row
    rw [recorded]
    exact if_pos (by decide)
  have hl : ∀ rows : List ConfigurationVersion,
      (recordedRows rows .confirm v.generation confirmedLine now).countP owed ≤
        rows.countP owed := by
    intro rows
    rw [recordedRows,List.countP_map]
    refine List.countP_mono_left fun row _ hr => ?_
    simp only [Function.comp_apply] at hr
    split_ifs at hr
    · rw [hc] at hr
      simp [owed,configurationConfirmed] at hr
    · exact hr
  obtain ⟨b,a,rfl⟩ := List.append_of_mem hv
  have hn : owed (recorded .confirm confirmedLine now v) = false := by
    rw [hc]
    simp [owed,configurationConfirmed]
  have hs : recordedRows (b++v::a) .confirm v.generation
      confirmedLine now =
        recordedRows b .confirm v.generation confirmedLine now ++
          recorded .confirm confirmedLine now v ::
            recordedRows a .confirm v.generation confirmedLine now := by
    simp [recordedRows]
  rw [hs,List.countP_append,List.countP_append,List.countP_cons_of_neg (by simp [hn]),
    List.countP_cons_of_pos ho]
  have hb := hl b
  have ha := hl a
  omega

theorem Serving.confirms (h : Serving self i cn) (r : List Octet → Bool)
    (hg : cn.session.greeted) (hf : cn.session.staging = none)
    {generation : ℕ} (hp : cn.session.pending = some (.confirm,generation)) :
    Sound (self.step r (.acts i (.line confirmedLine true))) ∧
      (self.step r (.acts i (.line confirmedLine true))).rows =
        recordedRows self.rows .confirm generation confirmedLine self.now := by
  have hk : self.Kept (.acts i (.line confirmedLine true)) := by
    intro fn hfn
    cases h.found.symm.trans hfn
    exact .inr ⟨hg,.inr rfl⟩
  have hkn := (h.sound.known i cn h.found).2
  obtain ⟨rows,af,ht,hrw,-⟩ := h.acts r hk
  refine ⟨h.sound.step hk,?_⟩
  cases ht with
  | early first => cases first.symm.trans hg
  | unknown a m e =>
    rcases a with ha | ⟨st,hr⟩
    · cases hf.symm.trans ha
    · exact absurd (hkn _ _ hr) m
  | verdict a g s p e => cases hf.symm.trans a
  | settles f a o =>
    cases hp.symm.trans a
    exact hrw
  | unasked a f s p e =>
    rcases a _ _ hp with hs | hm
    · cases hs
    · exact absurd (hkn _ _ hp) hm

/-- Where every version has a verdict, every commit can be brought to its confirmation, each
over a connection of its own. -/
theorem Sound.confirm_all (h : Sound self) (r : List Octet → Bool)
    (hv : ∀ row ∈ self.rows, ¬ Staging row) :
    Leads (Server.step r) self fun l => Sound l ∧
      (∀ row ∈ l.rows, ¬ Staging row) ∧ awaitingConfirmation l.rows = none := by
  induction hcount : self.rows.countP owed using Nat.strong_induction_on generalizing self with
  | _ co ih =>
    subst hcount
    cases ha : awaitingConfirmation self.rows with
    | none => exact .here ⟨h,hv,ha⟩
    | some v =>
      have hvr := awaitingConfirmation_mem ha
      have ho := awaitingConfirmation_owed ha
      have hb := ho
      rw [owed,Bool.and_eq_true,Option.isSome_iff_exists,Option.isNone_iff_eq_none] at hb
      obtain ⟨⟨c,hcm⟩,hu⟩ := hb
      have hd := h.provisional v hvr c ⟨hcm,hu⟩
      -- a new connection greets, is asked for the confirmation and answers
      have hcn : Serving (self.step r .connect) self.opened ⟨.new,[]⟩ :=
        ⟨h.connect,update_self _ _ _,rfl⟩
      obtain ⟨ask,hk,-,hro,hg,hst,-,how⟩ :=
        hcn.hello r rfl
      obtain ⟨hs,hc⟩ := hk.confirms r hg hst
        (how v c ha hcm hd)
      rw [hro] at hc
      refine .cons .connect (.cons (.acts self.opened (.hello true))
        (.cons (.acts self.opened (.line confirmedLine true)) (ih _ ?_ hs ?_ rfl)))
      · rw [hc]
        exact owed_confirmed hvr ho _
      · intro row hr hrw
        rw [hc] at hr
        obtain ⟨⟨old,hl,hw,-⟩,-⟩ := recordedRows_staging hr hrw
        exact hv old hl hw

theorem Sound.recoverable (h : Sound self) (r : List Octet → Bool) : Recoverable r self := by
  have hd : Leads (Server.step r) self fun l => Sound l ∧
      ∀ row ∈ l.rows, ¬ Staging row := by
    cases hrg : self.registered with
    | none =>
      refine .here ⟨h,fun row hr ht => ?_⟩
      obtain ⟨i,cn,hs,-⟩ := h.staging row hr ht
      cases hrg.symm.trans hs
    | some i =>
      obtain ⟨cn,hfn,hlv⟩ := h.registered i hrg
      refine (Serving.drain ⟨h,hfn,hlv⟩ r).trans ?_
      rintro l ⟨a,ha,hx,hnn⟩
      refine .here ⟨ha.sound,fun row hr ht => ?_⟩
      obtain ⟨o,f,hs,ho,hm⟩ := ha.sound.staging row hr ht
      cases (hx.trans hrg).symm.trans hs
      cases ha.found.symm.trans ho
      rw [hnn] at hm
      cases hm
  refine (hd.trans fun l hl => hl.1.confirm_all r hl.2).trans ?_
  rintro l ⟨-,hvr,hcn⟩
  refine .cons .connect (.here fun document hv => ?_)
  have hi : nothingInFlight l.rows := by
    rw [nothingInFlight,Bool.not_eq_true',List.any_eq_false]
    intro row hr hf
    simp only [Bool.and_eq_true,Bool.or_eq_true,Option.isNone_iff_eq_none] at hf
    obtain ⟨⟨hst,hu⟩,han | hc⟩ := hf
    · exact hvr row hr ⟨hst,han,hu⟩
    · have hn := awaitingConfirmation_none hcn hr
      rw [owed,hc,hu] at hn
      cases hn
  have hs : (l.step r .connect).registered.isNone = false := by
    change (l.registered.or (some l.opened)).isNone = false
    cases l.registered <;> rfl
  rw [stageConfiguration,hv,show (l.step r .connect).rows = l.rows from rfl,
    hi,hs]
  rfl

end Recovery

end Server

/-- In every run in which no version is left behind, every state reached is one from which a
staging can be accepted again. -/
theorem never_locked_out (rest : List Octet → Bool) (document : List Octet) (now : ℕ)
    (events : List Event)
    (h : Along (Server.step rest) Server.Kept (Server.start document now) events) :
    Server.Recoverable rest (run (Server.step rest) (Server.start document now) events) :=
  Server.Sound.recoverable
    (h.invariant (fun _ _ hs hk => hs.step hk) (Server.sound_start document now)) rest

/-! ### Versions that are left behind -/

namespace Server

variable {self : Server} {rs : List Octet → Bool} {generation : ℕ}

/-- In flight, as a staging is checked against it. -/
def InFlight (row : ConfigurationVersion) : Prop :=
  row.stagedAt.isSome ∧ row.confirmedAt = none ∧ (row.validatedAt = none ∨ row.committedAt.isSome)

/-- A version in flight that no open session will bring a line for. -/
structure Lost (server : Server) (generation : ℕ) : Prop where
  row : ∃ row ∈ server.rows, row.generation = generation ∧ InFlight row
  late : ∀ row ∈ server.rows, row.generation = generation → ∀ committed,
    row.committedAt = some committed → committed+confirmDeadlineSecs < server.now
  unheld : ∀ index connection, server.connections index = some connection →
    connection.session.ended = false → generation ∉ connection.held ∧
      ∀ step, connection.session.pending ≠ some (step,generation)

variable {i : ℕ} {rows : List ConfigurationVersion} {document : List Octet}

/-- An action on another version's behalf keeps a lost one lost. -/
theorem Lost.turned (h : Lost self generation) {a : Connection}
    (hrw : rows = self.rows ∨ ∃ s o l, o ≠ generation ∧
      rows = recordedRows self.rows s o l self.now)
    (ha : a.session.ended = false → generation ∉ a.held ∧
      ∀ s, a.session.pending ≠ some (s,generation)) :
    Lost (self.turned i rows a) generation := by
  have hk : ∀ row, row.generation = generation → (row ∈ rows ↔ row ∈ self.rows) := by
    intro row hg
    rcases hrw with rfl | ⟨s,o,l,hn,rfl⟩
    · rfl
    rw [recordedRows,List.mem_map]
    constructor
    · rintro ⟨old,hd,rfl⟩
      split_ifs at hg ⊢ with hs
      · rw [generation_recorded] at hg
        exact absurd (hs.symm.trans hg) hn
      · exact hd
    · intro hr
      exact ⟨row,hr,if_neg fun hs => hn (hs.symm.trans hg)⟩
  obtain ⟨row,hr,hg,hfl⟩ := h.row
  refine ⟨⟨row,(hk row hg).mpr hr,hg,hfl⟩,?_,?_⟩
  · intro o ho hs
    exact h.late o ((hk o hs).mp ho) hs
  · intro o f hf hl
    rcases turned_cases hf with ⟨rfl,rfl⟩ | ⟨-,hf⟩
    · exact ha hl
    · exact h.unheld o f hf hl

theorem Lost.turn (h : Lost self generation) {co : Connection} (hf : self.connections i = some co)
    (hl : co.session.ended = false) {a : Action} {af : Connection}
    (ht : Turn self.now self.rows co a rows af) :
    Lost (self.turned i rows af) generation := by
  obtain ⟨hh,hp⟩ := h.unheld i co hf hl
  have hg : ∀ {session : Session} {mailbox : List ConfigurationVersion}, session.ended →
      Lost (self.turned i self.rows ⟨session,mailbox⟩) generation :=
    fun he => h.turned (.inl rfl) fun ho => nomatch he.symm.trans ho
  have hst : ∀ {o}, co.session.staging = some o → o ≠ generation := by
    rintro o hot rfl
    apply hh
    rw [Connection.held,hot]
    exact mem_cons_self
  have hn : ∀ {v mailbox}, co.mailbox = v::mailbox →
      generation ∉ co.session.staging.toList ∧ generation ≠ v.generation ∧
        generation ∉ mailbox.map (·.generation) := by
    intro v mailbox hm
    rw [Connection.held,hm,List.map_cons] at hh
    simpa only [List.mem_append,List.mem_cons,not_or] using hh
  cases ht with
  | waits em => exact h.turned (.inl rfl) fun _ => ⟨hh,hp⟩
  | stages n f =>
    obtain ⟨-,hv,hm⟩ := hn n
    refine h.turned (.inl rfl) fun _ => ⟨?_,hp⟩
    exact fun hmm => (List.mem_cons.mp hmm).elim hv hm
  | drops n b =>
    obtain ⟨hb,-,hm⟩ := hn n
    exact h.turned (.inl rfl) fun _ => ⟨fun hmm =>
      (List.mem_append.mp hmm).elim hb hm,hp⟩
  | unsent n r => exact hg rfl
  | greets first s p g ow e =>
    refine h.turned (.inl rfl) fun _ => ⟨(held_eq s).symm ▸ hh,fun st hr => ?_⟩
    rcases p with hs | ⟨v,c,ha,hcm,hd,hcn⟩
    · exact hp st (hs ▸ hr)
    · cases hcn.symm.trans hr
      have hlt := h.late v (awaitingConfirmation_mem ha) rfl c hcm
      omega
  | again sc => exact hg rfl
  | early first => exact hg rfl
  | unknown ask m e => exact hg e
  | verdict ask g s p e =>
    refine h.turned (.inr ⟨.stage,_,_,hst ask,rfl⟩) fun _ => ⟨?_,fun st hr => ?_⟩
    · rw [Connection.held,s]
      exact fun hmm => hh (List.mem_append_right _ hmm)
    · rcases p with hs | hc
      · exact hp st (hs ▸ hr)
      · cases hc.symm.trans hr
        exact hst ask rfl
  | @settles l sn st o f ask _ =>
    refine h.turned (.inr ⟨st,o,l,?_,rfl⟩) fun _ => ⟨hh,nofun⟩
    rintro rfl
    exact hp st ask
  | unasked ask f s p e =>
    refine h.turned (.inl rfl) fun _ => ⟨(held_eq s).symm ▸ hh,fun st hr => ?_⟩
    cases p.symm.trans hr
  | counts s p e =>
    exact h.turned (.inl rfl) fun _ => ⟨(held_eq s).symm ▸ hh,fun st hr =>
      hp st (p ▸ hr)⟩
  | closes => exact hg rfl

theorem Lost.act (h : Lost self generation) (ind : ℕ) (a : Action) :
    Lost (self.act rs ind a) generation := by
  rw [Server.act]
  cases hf : self.connections ind with
  | none => exact h
  | some cn =>
    simp only
    split_ifs with he
    · exact h
    · have hl := Bool.eq_false_iff.mpr he
      exact h.turn hf hl (turn_cases rs self.now self.rows hl a)

theorem generation_lt_next {row : ConfigurationVersion}
    (h : row ∈ rows) : row.generation < nextGeneration rows := by
  have hl : ∀ (gs : List ℕ) (l : ℕ), l ≤ gs.foldl max l ∧
      ∀ generation ∈ gs, generation ≤ gs.foldl max l := by
    intro gs
    induction gs with
    | nil => exact fun l => ⟨le_rfl,nofun⟩
    | cons first o ih =>
      intro l
      obtain ⟨hf,hot⟩ := ih (max l first)
      refine ⟨(le_max_left _ _).trans hf,fun generation hm => ?_⟩
      rcases List.mem_cons.mp hm with rfl | ho
      · exact (le_max_right _ _).trans hf
      · exact hot generation ho
  exact Nat.lt_succ_of_le ((hl _ 0).2 _ (List.mem_map_of_mem h))

theorem Lost.insert (h : Lost self generation) {a : List (List Octet)} : Lost { self with
      rows := self.rows++[stagedVersion self.rows document self.now]
      admitted := a
      connections := self.post (stagedVersion self.rows document self.now) } generation := by
  obtain ⟨row,hrw,hg,hfl⟩ := h.row
  have hn : (stagedVersion self.rows document self.now).generation ≠ generation := by
    have hlt := generation_lt_next hrw
    rw [hg] at hlt
    exact hlt.ne'
  refine ⟨⟨row,List.mem_append_left _ hrw,hg,hfl⟩,?_,?_⟩
  · intro o ho hs c hc
    rcases List.mem_append.mp ho with hd | hl
    · exact h.late o hd hs c hc
    · rw [List.mem_singleton.mp hl] at hs
      exact absurd hs hn
  · intro i cn hf hlv
    change self.post _ i = some cn at hf
    cases hr : self.registered with
    | none =>
      rw [post,hr] at hf
      exact h.unheld i cn hf hlv
    | some r =>
      rw [post,hr] at hf
      rcases eq_or_ne i r with rfl | hne
      · simp only [update_self,Option.map_eq_some_iff] at hf
        obtain ⟨old,hd,rfl⟩ := hf
        obtain ⟨hh,hp⟩ := h.unheld i old hd hlv
        refine ⟨fun hm => ?_,hp⟩
        rw [held_concat] at hm
        rcases List.mem_append.mp hm with hw | hl
        · exact hh hw
        · exact hn (List.mem_singleton.mp hl).symm
      · simp only [update_of_ne hne] at hf
        exact h.unheld i cn hf hlv

theorem Lost.step (h : Lost self generation) (e : Event) : Lost (self.step rs e) generation := by
  cases e with
  | check document =>
    rw [Server.step]
    split_ifs
    · exact { h with }
    · exact h
  | insert document =>
    rw [Server.step]
    split_ifs
    · exact h.insert
    · exact h
  | connect =>
    refine ⟨h.row,h.late,fun i cn hf hl => ?_⟩
    change update self.connections self.opened (some ⟨.new,[]⟩) i = _ at hf
    rcases eq_or_ne i self.opened with rfl | hn
    · rw [update_self] at hf
      cases hf
      exact ⟨nofun,nofun⟩
    · rw [update_of_ne hn] at hf
      exact h.unheld i cn hf hl
  | acts i a => exact h.act i a
  | tick s =>
    refine ⟨h.row,fun row hr hs c hc => ?_,h.unheld⟩
    exact (h.late row hr hs c hc).trans_le (Nat.le_add_right _ _)

theorem Lost.not_recoverable (h : Lost self generation)
    (hv : validate rs document) : ¬ Recoverable rs self := by
  rintro ⟨es,ha⟩
  have hl : Lost (run (Server.step rs) self es) generation :=
    run_invariant (P := fun s => Lost s generation)
      (fun _ e hw => hw.step e) h es
  obtain ⟨row,hrw,-,hs,hu,hf⟩ := hl.row
  have hn : nothingInFlight (run (Server.step rs) self es).rows = false := by
    rw [nothingInFlight,Bool.not_eq_false',List.any_eq_true]
    refine ⟨row,hrw,?_⟩
    rw [hs,hu]
    rcases hf with han | hc
    · rw [han]
      rfl
    · rw [hc]
      exact Bool.or_true _
  have hr := ha document hv
  rw [stageConfiguration,hv,hn] at hr
  cases hr

theorem post_none (h : self.connections i = none)
    (v : ConfigurationVersion) : self.post v i = none := by
  cases hr : self.registered with
  | none =>
    rw [post,hr]
    exact h
  | some r =>
    rw [post,hr]
    dsimp only
    rcases eq_or_ne i r with rfl | hn
    · rw [update_self,h]
      rfl
    · rw [update_of_ne hn]
      exact h

theorem fresh_run (r : List Octet → Bool) (document : List Octet) (now : ℕ)
    (es : List Event) : ∀ i, (run (step r) (start document now) es).opened ≤ i →
      (run (step r) (start document now) es).connections i = none := by
  refine run_invariant (P := fun s : Server => ∀ i, s.opened ≤ i →
    s.connections i = none) (fun s e hf => ?_) (fun _ _ => rfl) es
  cases e with
  | check document =>
    rw [step]
    split_ifs
    · exact hf
    · exact hf
  | insert document =>
    rw [step]
    split_ifs
    · intro i hu
      exact post_none (hf i hu) _
    · exact hf
  | connect =>
    intro i hu
    change s.opened+1 ≤ i at hu
    exact (update_of_ne (by omega) _ _).trans (hf i (by omega))
  | acts o a =>
    rw [step,act]
    cases hfn : s.connections o with
    | none => exact hf
    | some cn =>
      simp only
      split_ifs
      · exact hf
      · intro i hu
        have hn := hf i hu
        refine (update_of_ne ?_ _ _).trans hn
        rintro rfl
        cases hn.symm.trans hfn
  | tick sc => exact hf

/-- A document is staged with no session up. -/
def stagedAlone : List Event := [.check (addressed "16"),.insert (addressed "16")]

/-- A document is staged and sent, and the session ends before the verdict. -/
def sessionLost : List Event :=
  [.connect,.acts 0 (.hello true),.check (addressed "16"),.insert (addressed "16"),
    .acts 0 (.deliver true),.acts 0 .closed]

/-- A document is staged, taken and committed, the appliance goes away to come back on a new
connection, and does so a second after the commit's deadline. -/
def deadlinePassed : List Event :=
  [.connect,.acts 0 (.hello true),.check (addressed "16"),.insert (addressed "16"),
    .acts 0 (.deliver true),.acts 0 (.line (ascii "generation=2 outcome=staged") true),
    .acts 0 (.line (ascii "generation=2 outcome=applied") true),.acts 0 .closed,.tick 301]

instance (row : ConfigurationVersion) : Decidable (InFlight row) :=
  inferInstanceAs (Decidable (_ ∧ _ ∧ (_ ∨ _)))

/-- A version that is in flight while every connection is over is lost. -/
theorem lost_of_ended (generation : ℕ) {now : ℕ} {es : List Event}
    (hr : ∃ row ∈ (run (step sectioned) (start document now) es).rows,
      row.generation = generation ∧ InFlight row)
    (hl : ∀ row ∈ (run (step sectioned) (start document now) es).rows,
      row.committedAt.all fun c => c+confirmDeadlineSecs <
        (run (step sectioned) (start document now) es).now)
    (hop : (run (step sectioned) (start document now) es).opened ≤ 1)
    (he : ((run (step sectioned) (start document now) es).connections 0).all (·.session.ended)) :
    Lost (run (step sectioned) (start document now) es) generation := by
  refine ⟨hr,fun row hm _ c hc => ?_,
    fun i cn hf hlv => ?_⟩
  · have ha := hl row hm
    rw [hc] at ha
    exact of_decide_eq_true ha
  · cases i with
    | zero =>
      rw [hf] at he
      cases hlv.symm.trans he
    | succ i =>
      cases (fresh_run sectioned document now es (i+1) (by omega)).symm.trans hf

end Server

/-- Each of the three leaves the appliance with a version in flight that nothing can clear: no
staging for it is accepted ever again. -/
theorem locked_out : ¬ Server.Recoverable sectioned (run (Server.step sectioned)
        (Server.start (addressed "15") 0) Server.stagedAlone) ∧
      ¬ Server.Recoverable sectioned (run (Server.step sectioned)
        (Server.start (addressed "15") 0) Server.sessionLost) ∧
      ¬ Server.Recoverable sectioned (run (Server.step sectioned)
        (Server.start (addressed "15") 0) Server.deadlinePassed) := by
  have hv : validate sectioned (addressed "16") := by decide +kernel
  refine ⟨?_,?_,?_⟩ <;>
    exact (Server.lost_of_ended 2 (by decide +kernel) (by decide +kernel) (by decide +kernel)
      (by decide +kernel)).not_recoverable hv

/-- A document staged, taken and committed on one connection, and the next connection open in
time. -/
def inTime : List Event :=
  [.connect,.acts 0 (.hello true),.check (addressed "16"),.insert (addressed "16"),
    .acts 0 (.deliver true),.acts 0 (.line (ascii "generation=2 outcome=staged") true),
    .acts 0 (.line (ascii "generation=2 outcome=applied") true),.acts 0 .closed,.tick 300,
    .connect]

instance (self : Server) : ∀ event, Decidable (self.Kept event)
  | .check _ => isTrue trivial
  | .insert _ => inferInstanceAs (Decidable (self.registered.isSome = true))
  | .connect => isTrue trivial
  | .acts index (.deliver sent) => inferInstanceAs (Decidable
      (∀ connection ∈ self.connections index, connection.session.staging = none ∧ sent = true))
  | .acts index (.hello sent) => inferInstanceAs (Decidable (∀ connection ∈ self.connections index,
        connection.held = [] ∨ (connection.session.greeted = false ∧ sent = true)))
  | .acts index (.line _ sent) => inferInstanceAs (Decidable
      (∀ connection ∈ self.connections index, connection.held = [] ∨
        (connection.session.greeted = true ∧ (connection.mailbox = [] ∨ sent = true))))
  | .acts index .other => inferInstanceAs (Decidable (∀ connection ∈ self.connections index,
        connection.held = [] ∨ connection.session.greeted = true))
  | .acts index .closed => inferInstanceAs (Decidable
      (∀ connection ∈ self.connections index, connection.held = []))
  | .tick seconds => inferInstanceAs (Decidable
      (∀ row ∈ self.rows, ∀ committed ∈ row.committedAt, row.confirmedAt = none →
        self.now+seconds ≤ committed+confirmDeadlineSecs))

theorem never_locked_out_in_time :
    (run (Server.step sectioned) (Server.start (addressed "15") 0) inTime).stageConfiguration
        sectioned (addressed "17") = .error .inFlight ∧
      Server.Recoverable sectioned
        (run (Server.step sectioned) (Server.start (addressed "15") 0) inTime) := by
  exact ⟨by decide +kernel,
    never_locked_out sectioned (addressed "15") 0 inTime (by decide +kernel)⟩

end LibreFirewall.ConfigLockouts

import LibreFirewall.FlowWindows

/-!
# Errors about a flow, and its two directions

An ICMP error is related to a flow by the datagram it quotes. The window a quoted sequence
number is held to is the one the quoted direction was authorised to send in, which is wider
than what it has sent.

A packet and one between the same two ends the other way name one key, and travel in opposite
directions of whatever flow has it. Two ends that are one and the same have one direction only.
-/

namespace LibreFirewall.RelatedErrors

open NetHeaders (Protocol)
open FlowIdentity FlowQuotes FlowEntries FlowTables FlowTable FlowReadings FlowSoundness
  FlowOperations FlowRuns PipelineOutcomes FlowWindows

variable {n : ℕ} {t : FlowTable n} {now : ℕ} {p p' : Packet} {r r' : Reading} {id : FlowId}
  {d : Direction} {e : FlowEntry} {q : Quoted}

/-! ### What an error is related by -/

/-- The key of the datagram an error quotes, and whether the lower end sent it. -/
def named (q : Quoted) : FlowKey × Bool :=
  FlowKey.of ⟨q.source,q.sourcePort⟩ ⟨q.destination,q.destinationPort⟩ q.protocol

/-- A quoted sequence number inside the edges recorded for its direction. -/
def Authorised (sender peer : DirectionState) (q : Quoted) : Prop :=
  ∀ sequence ∈ q.sequence, sequence.follows sender.maxEnd = false ∧
    sequence.precedes (sender.end.sub peer.maxWindow) = false

/-- Everything that agrees where an error is related to a flow. -/
structure Corroborated (t : FlowTable n) (now : ℕ) (p : Packet) (id : FlowId) (d : Direction)
    (q : Quoted) (e : FlowEntry) : Prop where
  isError : ∃ header, p.transport = .icmp header ∧ message header = some .error
  quotes : quoted p.destination (quotedBytes p.transportBytes) = .ok q
  source : q.source = p.destination
  live : Live t id.slot e (named q).1
  generation : e.generation = id.generation
  fresh : e.hasExpired now = false
  direction : d = e.directionOf (named q).2
  spoken : (e.sides (named q).2).1.spoken = true
  stated : q.protocol = .tcp → q.sequence.isSome
  window : Authorised (e.sides (named q).2).1 (e.sides (named q).2).2 q

theorem quotedTransport_ok {s d : NetHeaders.Ipv4Address} {pr : Protocol} {l g : ℕ}
    {bs : List NetHeaders.Octet} (h : quotedTransport s d pr l g bs = .ok q) :
    q.source = s ∧ (q.protocol = .tcp → q.sequence.isSome) := by
  unfold quotedTransport at h
  split_ifs at h with ht hl hu
  · cases h
    exact ⟨rfl,fun _ => rfl⟩
  · cases h
    exact ⟨rfl,fun hp => absurd hp ht⟩
  · cases h
    exact ⟨rfl,fun hp => absurd hp ht⟩

theorem quoted_ok {tr : NetHeaders.Ipv4Address} {bs : List NetHeaders.Octet}
    (h : quoted tr bs = .ok q) :
    q.source = tr ∧ (q.protocol = .tcp → q.sequence.isSome) := by
  unfold quoted at h
  dsimp only at h
  split_ifs at h with _ _ _ _ hs
  obtain ⟨hq,ht⟩ := quotedTransport_ok h
  exact ⟨hq.trans (not_not.mp hs),ht⟩

/-- Only a quotation is answered with a relation, and only from inside its window. -/
theorem answer_related (h : answer now r e = .related) : ∃ q, r.intent = .quote q ∧
    (e.sides r.fromLower).1.spoken = true ∧
    Authorised (e.sides r.fromLower).1 (e.sides r.fromLower).2 q := by
  unfold answer at h
  dsimp only at h
  split at h
  · split_ifs at h
    split at h <;> cases h
  · split at h <;> cases h
  · split_ifs at h
  · split_ifs at h
  · rename_i q hi
    split_ifs at h with hs
    split at h
    · cases h
    rename_i ho
    refine ⟨q,hi,by simpa using hs,fun s hq => ?_⟩
    rw [Option.mem_def.mp hq] at ho
    unfold quotedSequenceIsAuthorised at ho
    dsimp only at ho
    split_ifs at ho with hf hp
    exact ⟨Bool.eq_false_iff.mpr hf,Bool.eq_false_iff.mpr hp⟩

/-- Only an error is read as a quotation. -/
theorem reading_quote (h : reading p = .ok r) (hi : r.intent = .quote q) :
    (∃ hd, p.transport = .icmp hd ∧ message hd = some .error) ∧
    quoted p.destination (quotedBytes p.transportBytes) = .ok q ∧ named q = (r.key,r.fromLower) := by
  unfold reading at h
  split at h
  · split at h
    · cases h
    · cases h
    split at h
    · cases h
    · cases h
      cases hi
  · cases h
    cases hi
  · rename_i hd ht
    split at h
    · cases h
    · cases h
      cases hi
    · cases h
      cases hi
    · rename_i hm
      split at h
      · cases h
      · rename_i q' hq
        cases h
        cases hi
        exact ⟨⟨hd,ht,hm⟩,hq,rfl⟩
  all_goals cases h

theorem classify_related (hs : Settled t) (h : (t.classify now p).2 = .related id d) :
    ∃ q e, Corroborated t now p id d q e := by
  have hc := (classify_cases hs now p).2
  rw [h] at hc
  cases hc with
  | related hr hl hf ha _ =>
    obtain ⟨q,hi,hsp,hw⟩ := answer_related ha
    obtain ⟨he,hq,hn⟩ := reading_quote hr hi
    obtain ⟨hx,hst⟩ := quoted_ok hq
    refine ⟨q,_,he,hq,hx,?_,rfl,hf,?_,?_,hst,?_⟩
    all_goals rw [hn]
    · exact hl
    · exact hsp
    · exact hw

/-! ### The two directions -/

/-- The ends a packet travels between. An echo has its identifier at both. -/
def ends (p : Packet) : Option (Endpoint × Endpoint × Protocol) :=
  match p.transport with
  | .tcp header =>
    some (⟨p.source,header.sourcePort⟩,⟨p.destination,header.destinationPort⟩,.tcp)
  | .udp header =>
    some (⟨p.source,header.sourcePort⟩,⟨p.destination,header.destinationPort⟩,.udp)
  | .icmp header =>
    match message header with
    | some (.echoRequest identifier) | some (.echoReply identifier) =>
      some (⟨p.source,identifier⟩,⟨p.destination,identifier⟩,.icmp)
    | _ => none
  | _ => none

/-- Two packets between the same two ends, one each way. -/
def Exchanged (p p' : Packet) : Prop :=
  ∃ a b protocol, a ≠ b ∧ ends p = some (a,b,protocol) ∧ ends p' = some (b,a,protocol)

/-- The flow a reading is looked up as, and the direction it travels in. -/
def resolved (t : FlowTable n) (now : ℕ) (r : Reading) : Option (ℕ × Direction) :=
  (t.find now r.key).2.bind fun slot =>
    ((t.find now r.key).1.entryAt slot).map fun e => (slot,e.directionOf r.fromLower)

theorem orderingKey_injective {a b : Endpoint} (h : a.orderingKey = b.orderingKey) : a = b := by
  have hpa := a.port.isLt
  have hpb := b.port.isLt
  unfold Endpoint.orderingKey at h
  obtain ⟨⟨bs⟩,pr⟩ := a
  obtain ⟨⟨bs'⟩,pr'⟩ := b
  dsimp only at h hpa hpb
  have hb : bs = bs' := BitVec.eq_of_toNat_eq (by omega)
  have hp : pr = pr' := BitVec.eq_of_toNat_eq (by omega)
  rw [hb,hp]

theorem of_exchanged {a b : Endpoint} (h : a ≠ b) (pr : Protocol) :
    FlowKey.of b a pr = ((FlowKey.of a b pr).1,!(FlowKey.of a b pr).2) := by
  by_cases hab : a.precedesOrEquals b = true
  · have hba : ¬ b.precedesOrEquals a = true := by
      simp only [Endpoint.precedesOrEquals,decide_eq_true_eq] at hab ⊢
      exact fun hba => h (orderingKey_injective (le_antisymm hab hba))
    simp only [FlowKey.of,dif_pos hab,dif_neg hba,Bool.not_true]
  · have hba := a.precedesOrEquals_total b (Bool.eq_false_iff.mpr hab)
    simp only [FlowKey.of,dif_neg hab,dif_pos hba,Bool.not_false]

theorem directionOf_not (e : FlowEntry) (fl : Bool) :
    e.directionOf (!fl) = (e.directionOf fl).reversed := by
  unfold FlowEntry.directionOf
  cases fl <;> cases e.directionOfLower <;> rfl

theorem reading_ends (h : reading p = .ok r) {a b : Endpoint} {pr : Protocol}
    (he : ends p = some (a,b,pr)) : (r.key,r.fromLower) = FlowKey.of a b pr := by
  unfold reading at h
  unfold ends at he
  split at h
  · rename_i header ht
    rw [ht] at he
    cases he
    split at h
    · cases h
    · cases h
    split at h <;> cases h
    rfl
  · rename_i header ht
    rw [ht] at he
    cases he
    cases h
    rfl
  · rename_i header ht
    rw [ht] at he
    dsimp only at he
    split at h <;> rename_i hm <;> rw [hm] at he <;> cases he
    · cases h
      rfl
    · cases h
      rfl
  all_goals cases h

theorem exchanged_resolved (h : reading p = .ok r) (h' : reading p' = .ok r')
    (hx : Exchanged p p') (t : FlowTable n) (now : ℕ) :
    resolved t now r' = (resolved t now r).map fun f => (f.1,f.2.reversed) := by
  obtain ⟨a,b,pr,hab,hp,hp'⟩ := hx
  have hk := reading_ends h hp
  have hk' := reading_ends h' hp'
  rw [of_exchanged hab,← hk] at hk'
  obtain ⟨hy,hl⟩ := Prod.mk.inj hk'
  unfold resolved
  rw [hy,hl]
  simp only [directionOf_not]
  cases (t.find now r.key).2 with
  | none => rfl
  | some s =>
    rw [Option.bind_some,Option.bind_some,Option.map_map]
    rfl

/-! ### Over any run -/

/-- In a table any run leaves, an error is related only to a live flow of the datagram it
quotes, from inside the edges recorded for a direction that has spoken; and a packet and any
between the same two ends the other way resolve to one entry, in opposite directions. -/
theorem related_only_if_corroborated (l : Layout n) (ops : List Op) (now : ℕ) (p : Packet) :
    (∀ id d, ((run (new l) ops).classify now p).2 = .related id d →
      ∃ q e, Corroborated (run (new l) ops) now p id d q e) ∧
    ∀ p' r r', reading p = .ok r → reading p' = .ok r' → Exchanged p p' →
      resolved (run (new l) ops) now r' =
        (resolved (run (new l) ops) now r).map fun f => (f.1,f.2.reversed) :=
  ⟨fun _ _ h => classify_related (run_settled (new_settled l) ops) h,
    fun _ _ _ h h' hx => exchanged_resolved h h' hx _ now⟩

/-- An error from a third host to the first, quoting its segment of some sequence number. -/
def unreachable (sequence : BitVec 8 × BitVec 8) : Packet where
  ingress := 0
  source := ⟨3⟩
  destination := ⟨1⟩
  transport := .icmp ⟨3,0,0,0⟩
  transportBytes := [3,0,0,0,0,0,0,0,0x45,0,0,40,0,0,0,0,64,6,0,0,0,0,0,1,
    0,0,0,2,0,40,0,40,0,0,sequence.1,sequence.2]

/-- An error about the last segment of a handshake is related to the flow it opened. -/
theorem handshake_error_corroborated : ∃ q e, Corroborated (run (new layout_one) (handshake 7000)) 3
    (unreachable (0x1b,0x59)) ⟨0,1⟩ .original q e :=
  (related_only_if_corroborated layout_one (handshake 7000) 3 (unreachable (0x1b,0x59))).1
    ⟨0,1⟩ .original (by decide +kernel)

/-- The first host has sent nothing from 7001 on, and an error quoting 7500 is related to its
flow; and a packet from an end to itself travels in the direction of its own exchange. -/
theorem unsent_quote_related :
    (((run (new layout_one) (handshake 7000)).flow ⟨0,1⟩).map fun e => (side e true).end) =
      some ⟨7001⟩ ∧
    ((run (new layout_one) (handshake 7000)).classify 3 (unreachable (0x1d,0x4c))).2 =
      .related ⟨0,1⟩ .original ∧
    ends (bareSegment 1 1 0x02 7000 0) = some (⟨⟨1⟩,40⟩,⟨⟨1⟩,40⟩,.tcp) ∧
    (reading (bareSegment 1 1 0x02 7000 0)).toOption.bind (resolved
      (run (new layout_one) [.classify 0 (bareSegment 1 1 0x02 7000 0)]) 1) =
        some (0,.original) := by
  refine ⟨?_,?_,?_,?_⟩ <;> decide +kernel

end LibreFirewall.RelatedErrors

import LibreFirewall.Histories
import LibreFirewall.LinkedIndices

/-!
# The split virtqueue

The driver's side of a virtio queue (`virtio/src/queue.rs`): a descriptor table, the driver
ring and the device ring in one region the device can write every byte of. What the driver
allocates by is private: a free list and the chains that were published are threaded through
arrays of links, beside the state of each descriptor. All the device has a say in is what a
reading of the device ring brings.
-/

namespace LibreFirewall.Virtqueues

open Histories LinkedIndices
open Function (update update_of_ne update_self)
open List (count_append flatMap_append length_append mem_cons_self)
open BitVec (ofNat)

/-! ### The region -/

/-- The sizes a queue can have: the constants a queue of any other size does not compile
with. -/
structure QueueSize where
  size : ℕ
  power_of_two : ∃ exponent, size = 2^exponent
  two_le : 2 ≤ size
  le_max : size ≤ 32768

theorem QueueSize.pos (q : QueueSize) : 0 < q.size := by
  have := q.two_le
  omega

/-- An index of the descriptor table or of a ring. -/
abbrev Index (q : QueueSize) : Type := Fin q.size

inductive DescriptorState where
  | free
  /-- The head of a posted chain, the only descriptor of it the device may complete. -/
  | posted
  | postedLink
  | reaped
  deriving DecidableEq

/-- One buffer of a chain. -/
structure Segment where
  paddr : BitVec 64
  len : BitVec 32
  deviceWritable : Bool
  deriving DecidableEq

structure Descriptor where
  paddr : BitVec 64
  len : BitVec 32
  flags : BitVec 16
  next : BitVec 16

def flagNext : BitVec 16 := 1

def flagWrite : BitVec 16 := 2

/-- What the region holds. The device may write all of it. -/
structure Region (q : QueueSize) where
  descriptors : Index q → Descriptor
  availRing : Index q → BitVec 16
  availIdx : BitVec 16
  usedIdx : BitVec 16
  usedRing : Index q → BitVec 32 × BitVec 32

/-- A region of zeros. -/
def Region.zero (q : QueueSize) : Region q :=
  ⟨fun _ => ⟨0,0,0,0⟩,fun _ => 0,0,0,fun _ => (0,0)⟩

/-- Completions refused. -/
structure DeviceFaults where
  completionOutOfRange : ℕ
  completionNotPosted : ℕ
  completionLengthOverReported : ℕ

/-- A counter that stops at the largest word. -/
def bump (counter : ℕ) : ℕ := min (counter+1) (2^64 - 1)

/-- A completion that claims more than was posted is noted before it is cut. -/
def DeviceFaults.noteLength (faults : DeviceFaults) (posted reported : ℕ) : DeviceFaults :=
  if posted < reported then
    { faults with completionLengthOverReported := bump faults.completionLengthOverReported }
  else faults

/-! ### The queue -/

structure SplitVirtqueue (q : QueueSize) where
  region : Region q
  state : Index q → DescriptorState
  /-- What the device may report writing of the chain each head is the head of. -/
  postedLen : Index q → ℕ
  freeNext : Index q → BitVec 16
  chainNext : Index q → BitVec 16
  freeHead : BitVec 16
  numFree : ℕ
  numPosted : ℕ
  availIdx : BitVec 16
  lastUsed : BitVec 16
  faults : DeviceFaults

/-- The link that ends a chain. -/
def noLink : BitVec 16 := ofNat 16 65535

variable {q : QueueSize}

/-- Reduce any index into the table or either ring. -/
def wrap (q : QueueSize) (index : BitVec 16) : Index q :=
  ⟨index.toNat % q.size,Nat.mod_lt _ q.pos⟩

/-- An index as a link. -/
def toLink (index : Index q) : BitVec 16 := ofNat 16 index.val

theorem toNat_toLink (index : Index q) : (toLink index).toNat = index.val := by
  have hi := index.isLt
  have hm := q.le_max
  rw [toLink,BitVec.toNat_ofNat,Nat.mod_eq_of_lt]
  omega

@[simp] theorem wrap_toLink (index : Index q) : wrap q (toLink index) = index := by
  apply Fin.ext
  rw [wrap]
  simp only [toNat_toLink]
  exact Nat.mod_eq_of_lt index.isLt

theorem toLink_ne_noLink (index : Index q) : toLink index ≠ noLink := by
  intro h
  have hv := congrArg BitVec.toNat h
  rw [toNat_toLink] at hv
  have hi := index.isLt
  have hm := q.le_max
  have hn : noLink.toNat = 65535 := rfl
  omega

namespace SplitVirtqueue

/-- The queue over a region of zeros, with every descriptor on the free list. The last link
wraps and is never followed. -/
def new (q : QueueSize) : SplitVirtqueue q where
  region := Region.zero q
  state _ := .free
  postedLen _ := 0
  freeNext index := ofNat 16 ((index.val+1) % q.size)
  chainNext _ := noLink
  freeHead := 0
  numFree := q.size
  numPosted := 0
  availIdx := 0
  lastUsed := 0
  faults := ⟨0,0,0⟩

/-! #### Publishing a chain -/

/-- A chain being built from its tail. -/
structure Building (q : QueueSize) where
  queue : SplitVirtqueue q
  successor : BitVec 16
  writableLen : ℕ

/-- Take the next free descriptor for a segment, in front of what is built. -/
def take (building : Building q) (segment : Segment) : Building q :=
  let queue := building.queue
  let index := wrap q queue.freeHead
  let flags := (if segment.deviceWritable then flagWrite else 0) |||
    if building.successor = noLink then 0 else flagNext
  let next := if building.successor = noLink then 0 else building.successor
  { queue :=
      { queue with
        freeHead := queue.freeNext index
        numFree := queue.numFree - 1
        region := { queue.region with
          descriptors := update queue.region.descriptors index
            ⟨segment.paddr,segment.len,flags,next⟩ }
        chainNext := update queue.chainNext index building.successor
        state := update queue.state index .postedLink }
    successor := toLink index
    writableLen :=
      if segment.deviceWritable then min (building.writableLen+segment.len.toNat) (2^32 - 1)
      else building.writableLen }

/-- Make what was built a request, and tell the device. -/
def post (building : Building q) : BitVec 16 × SplitVirtqueue q :=
  let queue := building.queue
  let head := wrap q building.successor
  (toLink head,
    { queue with
      state := update queue.state head .posted
      postedLen := update queue.postedLen head building.writableLen
      numPosted := queue.numPosted+1
      region := { queue.region with
        availRing := update queue.region.availRing (wrap q queue.availIdx) (toLink head)
        availIdx := queue.availIdx+1 }
      availIdx := queue.availIdx+1 })

/-- Publish the segments as one request. `none`, with nothing allocated, for no segments or
more than there are free descriptors. -/
def addChain (queue : SplitVirtqueue q) (segments : List Segment) :
    Option (BitVec 16) × SplitVirtqueue q :=
  if segments = [] ∨ queue.numFree < segments.length then (none,queue)
  else
    let posted := post (segments.reverse.foldl take ⟨queue,noLink,0⟩)
    (some posted.1,posted.2)

/-! #### Reaping a completion -/

/-- Judge the next entry of the device ring. `none` is a refusal. -/
def examine (queue : SplitVirtqueue q) (entry : BitVec 32 × BitVec 32) :
    Option (BitVec 16 × ℕ) × SplitVirtqueue q :=
  let queue := { queue with lastUsed := queue.lastUsed+1 }
  if q.size ≤ entry.1.toNat then
    (none,{ queue with faults := { queue.faults with
      completionOutOfRange := bump queue.faults.completionOutOfRange } })
  else
    let index := wrap q (entry.1.setWidth 16)
    if queue.state index ≠ .posted then
      (none,{ queue with faults := { queue.faults with
        completionNotPosted := bump queue.faults.completionNotPosted } })
    else
      (some (toLink index,min entry.2.toNat (queue.postedLen index)),
        { queue with
          state := update queue.state index .reaped
          numPosted := queue.numPosted - 1
          faults := queue.faults.noteLength (queue.postedLen index) entry.2.toNat })

/-- Look at entries until one is accepted or the ring is caught up, each as the region holds
it when it is read. -/
def reapNext (queue : SplitVirtqueue q) :
    List (Region q) → Option (BitVec 16 × ℕ) × SplitVirtqueue q
  | [] => (none,queue)
  | region::later =>
    if region.usedIdx = queue.lastUsed then (none,queue)
    else
      match queue.examine (region.usedRing (wrap q queue.lastUsed)) with
      | (some completion,queue) => (some completion,queue)
      | (none,queue) => reapNext queue later

/-- Reap the next completion, over what the region holds at each of the queue's readings. -/
def poll (queue : SplitVirtqueue q) (regions : Index q → Region q) :
    Option (BitVec 16 × ℕ) × SplitVirtqueue q :=
  queue.reapNext (List.ofFn regions)

/-! #### Recycling a completion -/

/-- Put a descriptor in front of the free list. -/
def freed (queue : SplitVirtqueue q) (index : Index q) : SplitVirtqueue q :=
  { queue with
    state := update queue.state index .free
    freeNext := update queue.freeNext index queue.freeHead
    freeHead := toLink index
    numFree := queue.numFree+1 }

/-- Free a chain from a member on, for at most so many descriptors. -/
def releaseFrom (queue : SplitVirtqueue q) (index : Index q) : ℕ → SplitVirtqueue q
  | 0 => queue
  | steps+1 =>
    if queue.chainNext index = noLink then queue.freed index
    else releaseFrom (queue.freed index) (wrap q (queue.chainNext index)) steps

def release (queue : SplitVirtqueue q) (head : BitVec 16) : SplitVirtqueue q :=
  queue.releaseFrom (wrap q head) q.size

end SplitVirtqueue

/-! ### Where the descriptors are

The allocator as its callers see it: what is free, in the order it will be taken, the requests
the device has, and those it completed and nobody recycled. -/

/-- A request: its descriptors in the device's order, and what they were published with. -/
structure Chain (q : QueueSize) where
  head : Index q
  links : List (Index q)
  segments : List Segment
  deriving DecidableEq

def Chain.members (chain : Chain q) : List (Index q) := chain.head::chain.links

/-- How much the device can write into a chain. -/
def Chain.writable (chain : Chain q) : ℕ :=
  ((chain.segments.filter (·.deviceWritable)).map (·.len.toNat)).sum

structure Pool (q : QueueSize) where
  free : List (Index q)
  posted : List (Chain q)
  reaped : List (Chain q)

namespace Pool

def new (q : QueueSize) : Pool q := ⟨List.finRange q.size,[],[]⟩

/-- A request takes its descriptors from the front of the free list, the last of them its
head. -/
def publish (pool : Pool q) (segments : List Segment) : Pool q :=
  match (pool.free.take segments.length).reverse with
  | [] => pool
  | head::links =>
    { pool with
      free := pool.free.drop segments.length
      posted := ⟨head,links,segments⟩::pool.posted }

/-- The request with this head is complete. -/
def complete (pool : Pool q) (head : Index q) : Pool q :=
  { pool with
    posted := pool.posted.eraseP (·.head = head)
    reaped := (pool.posted.find? (·.head = head)).toList++pool.reaped }

/-- The completed request with this head gives its descriptors back. -/
def recycle (pool : Pool q) (head : Index q) : Pool q :=
  { pool with
    free := ((pool.reaped.find? (·.head = head)).toList.flatMap Chain.members).reverse++pool.free
    reaped := pool.reaped.eraseP (·.head = head) }

/-- How often a descriptor is somewhere in the pool. -/
def places (pool : Pool q) (index : Index q) : ℕ :=
  pool.free.count index+(pool.posted.flatMap Chain.members).count index +
    (pool.reaped.flatMap Chain.members).count index

end Pool

/-! ### Runs -/

/-- A queue, the pool its answers make, and the completion its caller holds. -/
structure Driver (q : QueueSize) where
  queue : SplitVirtqueue q
  pool : Pool q
  hand : Option (BitVec 16)

inductive Event (q : QueueSize) where
  | addChain (segments : List Segment)
  /-- The next completion is looked for. A completion still held was dropped. -/
  | poll (regions : Index q → Region q)
  | recycle
  /-- The device writes whatever it likes, wherever it likes. -/
  | device (region : Region q)

namespace Driver

def start (q : QueueSize) : Driver q := ⟨SplitVirtqueue.new q,Pool.new q,none⟩

def step (driver : Driver q) : Event q → Driver q
  | .addChain segments =>
    match driver.queue.addChain segments with
    | (none,queue) => { driver with queue := queue, hand := none }
    | (some _,queue) => ⟨queue,driver.pool.publish segments,none⟩
  | .poll regions =>
    match driver.queue.poll regions with
    | (none,queue) => { driver with queue := queue, hand := none }
    | (some (head,_),queue) => ⟨queue,driver.pool.complete (wrap q head),some head⟩
  | .recycle =>
    match driver.hand with
    | none => driver
    | some head => ⟨driver.queue.release head,driver.pool.recycle (wrap q head),none⟩
  | .device region => { driver with queue := { driver.queue with region := region } }

end Driver

/-- A chain is threaded through the links, with only its head in this state. -/
structure Threaded (queue : SplitVirtqueue q) (state : DescriptorState) (chain : Chain q) :
    Prop where
  path : Path toLink queue.chainNext (toLink chain.head) chain.members noLink
  head : queue.state chain.head = state
  links : ∀ index ∈ chain.links, queue.state index = .postedLink
  fits : chain.segments.length = chain.members.length

/-- The queue's own structures say what the pool says. -/
structure Represents (queue : SplitVirtqueue q) (pool : Pool q) : Prop where
  /-- Every descriptor is in exactly one place. -/
  places : ∀ index, pool.places index = 1
  /-- The free list runs through the free descriptors, and is as long as the queue counts. -/
  free : ∃ stop, Path toLink queue.freeNext queue.freeHead pool.free stop
  numFree : queue.numFree = pool.free.length
  freeState : ∀ index ∈ pool.free, queue.state index = .free
  posted : ∀ chain ∈ pool.posted, Threaded queue .posted chain
  numPosted : queue.numPosted = pool.posted.length
  /-- What the device may report of a request is at most what it can write. -/
  postedLen : ∀ chain ∈ pool.posted, queue.postedLen chain.head ≤ chain.writable
  reaped : ∀ chain ∈ pool.reaped, Threaded queue .reaped chain

/-! ### A new queue -/

/-- The links of a new queue run through the indices from any one on. -/
theorem path_new (q : QueueSize) (f ss : ℕ) (h : f+ss = q.size) :
    Path toLink (SplitVirtqueue.new q).freeNext (ofNat 16 (f % q.size))
      ((List.finRange q.size).drop f) 0 := by
  induction ss generalizing f with
  | zero =>
    have he : f = q.size := h
    subst he
    rw [Nat.mod_self,List.drop_eq_nil_of_le (by simp)]
    exact .nil 0
  | succ ss ih =>
    have hl : f < q.size := by omega
    have hd : (List.finRange q.size).drop f =
        ⟨f,hl⟩::(List.finRange q.size).drop (f+1) := by
      rw [List.drop_eq_getElem_cons (by simpa using hl),List.getElem_finRange]
      rfl
    have hs : ofNat 16 (f % q.size) = toLink (⟨f,hl⟩ : Index q) := by
      rw [Nat.mod_eq_of_lt hl]
      rfl
    rw [hd,hs]
    exact .cons (ih (f+1) (by omega))

theorem represents_new (q : QueueSize) : Represents (SplitVirtqueue.new q) (Pool.new q) where
  places index := by
    simp [Pool.places,Pool.new]
  free := by
    have hp := path_new q 0 q.size (Nat.zero_add _)
    rw [Nat.zero_mod] at hp
    exact ⟨0,hp⟩
  numFree := (List.length_finRange).symm
  freeState _ _ := rfl
  posted := nofun
  numPosted := rfl
  postedLen := nofun
  reaped := nofun

/-! ### What is in one place is in no other -/

section Apart

variable {queue : SplitVirtqueue q} {pool : Pool q} {index : Index q} {chain : Chain q}

theorem count_chains {cs b a : List (Chain q)} (h : cs = b++chain::a)
    (index : Index q) : (cs.flatMap Chain.members).count index =
      (b.flatMap Chain.members).count index+chain.members.count index +
        (a.flatMap Chain.members).count index := by
  rw [h,flatMap_append,List.flatMap_cons,count_append,count_append]
  omega

theorem count_pos_of_chain {cs : List (Chain q)} (hc : chain ∈ cs)
    (hi : index ∈ chain.members) : 0 < (cs.flatMap Chain.members).count index :=
  List.count_pos_iff.mpr (List.mem_flatMap.mpr ⟨chain,hc,hi⟩)

theorem Represents.free_nodup (h : Represents queue pool) : pool.free.Nodup := by
  refine List.nodup_iff_count_le_one.mpr fun index => ?_
  have hp := h.places index
  rw [Pool.places] at hp
  omega

theorem Represents.free_apart (h : Represents queue pool) (hf : index ∈ pool.free)
    (hc : chain ∈ pool.posted ∨ chain ∈ pool.reaped) : index ∉ chain.members := by
  intro hi
  have hp := h.places index
  have hcn := List.count_pos_iff.mpr hf
  rw [Pool.places] at hp
  rcases hc with hps | hr
  · have := count_pos_of_chain hps hi
    omega
  · have := count_pos_of_chain hr hi
    omega

theorem Threaded.congr {s : DescriptorState} {a : SplitVirtqueue q} (h : Threaded queue s chain)
    (hn : ∀ index ∈ chain.members, a.chainNext index = queue.chainNext index)
    (hs : ∀ index ∈ chain.members, a.state index = queue.state index) :
    Threaded a s chain where
  path := h.path.congr hn
  head := (hs chain.head mem_cons_self).trans h.head
  links index hi := (hs index (List.mem_cons_of_mem _ hi)).trans (h.links index hi)
  fits := h.fits

end Apart

/-! ### Publishing -/

section Publishing

variable {queue : SplitVirtqueue q} {pool : Pool q}

/-- How much the device can write into some segments. -/
def writableOf (segments : List Segment) : ℕ :=
  ((segments.filter (·.deviceWritable)).map (·.len.toNat)).sum

/-- What building a chain leaves, with these descriptors taken and these still free: only the
links and states of those taken have changed. -/
structure Built (queue : SplitVirtqueue q) (stop : BitVec 16) (taken rest : List (Index q))
    (segments : List Segment) (building : SplitVirtqueue.Building q) : Prop where
  freeNext : building.queue.freeNext = queue.freeNext
  free : Path toLink queue.freeNext building.queue.freeHead rest stop
  numFree : building.queue.numFree = queue.numFree - taken.length
  chain : Path toLink building.queue.chainNext building.successor taken.reverse noLink
  chainNext : ∀ index, index ∉ taken → building.queue.chainNext index = queue.chainNext index
  linked : ∀ index ∈ taken, building.queue.state index = .postedLink
  state : ∀ index, index ∉ taken → building.queue.state index = queue.state index
  postedLen : building.queue.postedLen = queue.postedLen
  numPosted : building.queue.numPosted = queue.numPosted
  lastUsed : building.queue.lastUsed = queue.lastUsed
  writable : building.writableLen ≤ writableOf segments

variable {stop : BitVec 16} {taken rest : List (Index q)} {ss : List Segment} {b :
  SplitVirtqueue.Building q}

theorem built_nil (rest : List (Index q))
    (h : Path toLink queue.freeNext queue.freeHead rest stop) :
    Built queue stop [] rest [] ⟨queue,noLink,0⟩ where
  freeNext := rfl
  free := h
  numFree := rfl
  chain := .nil noLink
  chainNext _ _ := rfl
  linked := nofun
  state _ _ := rfl
  postedLen := rfl
  numPosted := rfl
  lastUsed := rfl
  writable := Nat.zero_le _

theorem Built.take {index : Index q}
    (h : Built queue stop taken (index::rest) ss b) (hf : index ∉ taken)
    (s : Segment) : Built queue stop (taken++[index]) rest (s::ss)
      (SplitVirtqueue.take b s) := by
  obtain ⟨hh,hr⟩ := path_cons.mp h.free
  have hi : wrap q b.queue.freeHead = index := by rw [hh,wrap_toLink]
  unfold SplitVirtqueue.take
  simp only [hi]
  constructor
  case freeNext => exact h.freeNext
  case free => exact h.freeNext ▸ hr
  case numFree =>
    change b.queue.numFree - 1 = queue.numFree - (taken++[index]).length
    rw [h.numFree,length_append,List.length_singleton]
    omega
  case chain =>
    rw [List.reverse_append]
    exact h.chain.push (by simpa using hf)
  case chainNext =>
    intro o ho
    rw [List.mem_append,List.mem_singleton,not_or] at ho
    exact (update_of_ne ho.2 _ _).trans (h.chainNext o ho.1)
  case linked =>
    intro o ho
    rcases eq_or_ne o index with rfl | hn
    · exact update_self _ _ _
    · refine (update_of_ne hn _ _).trans (h.linked o ?_)
      exact (List.mem_append.mp ho).resolve_right fun hl =>
        hn (List.mem_singleton.mp hl)
  case state =>
    intro o ho
    rw [List.mem_append,List.mem_singleton,not_or] at ho
    exact (update_of_ne ho.2 _ _).trans (h.state o ho.1)
  case postedLen => exact h.postedLen
  case numPosted => exact h.numPosted
  case lastUsed => exact h.lastUsed
  case writable =>
    have hw := h.writable
    unfold writableOf at hw ⊢
    cases hwr : s.deviceWritable with
    | false =>
      rw [List.filter_cons_of_neg (by simp [hwr])]
      exact hw
    | true =>
      rw [List.filter_cons_of_pos hwr,List.map_cons,List.sum_cons]
      exact (min_le_left _ _).trans ((Nat.add_le_add_right hw _).trans_eq (Nat.add_comm _ _))

theorem Built.fold {m : List (Index q)} {d : List Segment}
    (h : Built queue stop taken (m++rest) d b) (sg : List Segment)
    (hl : m.length = sg.length) (hf : (taken++m).Nodup) :
    Built queue stop (taken++m) rest (sg.reverse++d) (sg.foldl SplitVirtqueue.take b) := by
  induction sg generalizing taken m d b with
  | nil =>
    obtain rfl := List.eq_nil_of_length_eq_zero hl
    simpa using h
  | cons s sg ih =>
    cases m with
    | nil => cases hl
    | cons index m =>
      have hi : index ∉ taken := by
        intro hm
        exact (List.nodup_append'.mp hf).2.2 hm mem_cons_self
      have hn := ih (h.take hi s) (Nat.succ.inj hl) (by simpa using hf)
      simpa using hn

/-- What was built becomes a request of the device's. -/
theorem Represents.post (h : Represents queue pool) {l : List (Index q)} {head : Index q}
    (hb : Built queue stop taken rest ss b)
    (hf : pool.free = taken++rest) (hc : taken.reverse = head::l)
    (hft : ss.length = taken.length) : (SplitVirtqueue.post b).1 = toLink head ∧
      Represents (SplitVirtqueue.post b).2
        { pool with free := rest, posted := ⟨head,l,ss⟩::pool.posted } := by
  have hp := hc ▸ hb.chain
  have hhd : wrap q b.successor = head := by
    rw [(path_cons.mp hp).1,wrap_toLink]
  have hmm : ∀ index, index ∈ head::l ↔ index ∈ taken := by
    intro index
    rw [← hc,List.mem_reverse]
  have hh : head ∈ taken := (hmm head).mp mem_cons_self
  have hnd : (taken++rest).Nodup := hf ▸ h.free_nodup
  have htk : (head::l).Nodup := by
    rw [← hc,List.nodup_reverse]
    exact (List.nodup_append'.mp hnd).1
  unfold SplitVirtqueue.post
  simp only [hhd]
  refine ⟨trivial,?_⟩
  -- what is not taken keeps its link and its state
  have hk : ∀ index, index ∉ taken → b.queue.chainNext index = queue.chainNext index ∧
      update b.queue.state head .posted index = queue.state index := by
    intro index hi
    have hn : index ≠ head := by
      rintro rfl
      exact hi hh
    exact ⟨hb.chainNext index hi,(update_of_ne hn _ _).trans (hb.state index hi)⟩
  have ha : ∀ chain, chain ∈ pool.posted ∨ chain ∈ pool.reaped →
      ∀ index ∈ chain.members, index ∉ taken := by
    intro chain hm index hi ht
    exact h.free_apart (hf ▸ List.mem_append_left rest ht) hm hi
  have hs := fun chain hm index hi => hk index (ha chain hm index hi)
  constructor
  case places =>
    intro index
    have hpl := h.places index
    have hcn : taken.count index = (head::l).count index := by
      rw [← hc,List.count_reverse]
    rw [Pool.places,hf,count_append] at hpl
    rw [Pool.places,List.flatMap_cons,count_append]
    change rest.count index+((head::l).count index +
      (pool.posted.flatMap Chain.members).count index) +
        (pool.reaped.flatMap Chain.members).count index = 1
    omega
  case free => exact ⟨stop,hb.freeNext ▸ hb.free⟩
  case numFree =>
    change b.queue.numFree = rest.length
    rw [hb.numFree,h.numFree,hf,length_append]
    omega
  case freeState =>
    intro index hi
    have hnt : index ∉ taken := fun ht => (List.nodup_append'.mp hnd).2.2 ht hi
    exact (hk index hnt).2.trans (h.freeState index (hf ▸ List.mem_append_right taken hi))
  case posted =>
    intro chain hm
    rcases List.mem_cons.mp hm with rfl | hl
    · refine ⟨?_,update_self _ _ _,?_,?_⟩
      · rw [(path_cons.mp hp).1] at hp
        exact hp
      · intro index hi
        have hn : index ≠ head := by
          rintro rfl
          exact (List.nodup_cons.mp htk).1 hi
        exact (update_of_ne hn _ _).trans
          (hb.linked index ((hmm index).mp (List.mem_cons_of_mem _ hi)))
      · change ss.length = (head::l).length
        rw [hft,← hc,List.length_reverse]
    · exact (h.posted chain hl).congr (fun index hi => (hs chain (.inl hl) index hi).1)
        fun index hi => (hs chain (.inl hl) index hi).2
  case numPosted =>
    change b.queue.numPosted+1 = _
    rw [hb.numPosted,h.numPosted]
    rfl
  case postedLen =>
    intro chain hm
    change update b.queue.postedLen head b.writableLen chain.head ≤ _
    rcases List.mem_cons.mp hm with rfl | hl
    · rw [update_self]
      exact hb.writable
    · rw [update_of_ne,hb.postedLen]
      · exact h.postedLen chain hl
      · rintro rfl
        exact ha chain (.inl hl) chain.head mem_cons_self hh
  case reaped =>
    intro chain hm
    exact (h.reaped chain hm).congr (fun index hi => (hs chain (.inr hm) index hi).1)
      fun index hi => (hs chain (.inr hm) index hi).2

/-- A request takes exactly its length in descriptors off the front of the free list, and they
become its chain. -/
theorem Represents.publish (h : Represents queue pool)
    (hn : ss ≠ []) (hf : ss.length ≤ queue.numFree) :
    ∃ hd ls, (pool.free.take ss.length).reverse = hd::ls ∧
      (queue.addChain ss).1 = some (toLink hd) ∧
      Represents (queue.addChain ss).2 (pool.publish ss) := by
  obtain ⟨stop,hp⟩ := h.free
  have hs : pool.free.take ss.length++pool.free.drop ss.length = pool.free :=
    List.take_append_drop _ _
  have hl : (pool.free.take ss.length).length = ss.length := by
    rw [List.length_take,← h.numFree]
    omega
  have hnd : (pool.free.take ss.length).Nodup :=
    h.free_nodup.sublist (List.take_sublist _ _)
  have hb := (built_nil (pool.free.take ss.length++pool.free.drop ss.length)
    (hs.symm ▸ hp)).fold ss.reverse (by rw [hl,List.length_reverse])
    (by simpa using hnd)
  rw [List.nil_append,List.reverse_reverse,List.append_nil] at hb
  have ha : queue.addChain ss =
      (some (SplitVirtqueue.post (ss.reverse.foldl SplitVirtqueue.take ⟨queue,noLink,0⟩)).1,
        (SplitVirtqueue.post
          (ss.reverse.foldl SplitVirtqueue.take ⟨queue,noLink,0⟩)).2) := by
    rw [SplitVirtqueue.addChain,if_neg]
    rw [not_or,not_lt]
    exact ⟨hn,hf⟩
  cases hc : (pool.free.take ss.length).reverse with
  | nil =>
    rw [List.reverse_eq_nil_iff] at hc
    rw [hc] at hl
    exact absurd (List.eq_nil_of_length_eq_zero hl.symm) hn
  | cons hd ls =>
    obtain ⟨hh,haf⟩ := h.post hb hs.symm hc hl.symm
    refine ⟨hd,ls,rfl,?_,?_⟩
    · rw [ha,hh]
    · rw [ha,Pool.publish,hc]
      exact haf

end Publishing

/-! ### Reaping -/

section Reaping

variable {queue : SplitVirtqueue q} {pool : Pool q}

theorem Represents.somewhere (h : Represents queue pool) (index : Index q) :
    index ∈ pool.free ∨ (∃ chain ∈ pool.posted, index ∈ chain.members) ∨
      ∃ chain ∈ pool.reaped, index ∈ chain.members := by
  have hp := h.places index
  by_contra hn
  rw [not_or,not_or] at hn
  obtain ⟨hf,hps,hr⟩ := hn
  rw [Pool.places,List.count_eq_zero_of_not_mem hf,
    List.count_eq_zero_of_not_mem (by simpa [List.mem_flatMap] using hps),
    List.count_eq_zero_of_not_mem (by simpa [List.mem_flatMap] using hr)] at hp
  cases hp

variable {chain : Chain q}

theorem Threaded.not_free {s : DescriptorState}
    (h : Threaded queue s chain) (hs : s ≠ .free) {index : Index q}
    (hi : index ∈ chain.members) : queue.state index ≠ .free := by
  rcases List.mem_cons.mp hi with rfl | hl
  · rw [h.head]
    exact hs
  · rw [h.links index hl]
    nofun

theorem Represents.free_iff (h : Represents queue pool) (index : Index q) :
    queue.state index = .free ↔ index ∈ pool.free := by
  refine ⟨fun hs => ?_,h.freeState index⟩
  rcases h.somewhere index with hf | ⟨chain,hc,hm⟩ | ⟨chain,hc,hm⟩
  · exact hf
  · exact absurd hs ((h.posted chain hc).not_free nofun hm)
  · exact absurd hs ((h.reaped chain hc).not_free nofun hm)

theorem Represents.posted_head (h : Represents queue pool) {index : Index q}
    (hs : queue.state index = .posted) : ∃ chain ∈ pool.posted, chain.head = index := by
  rcases h.somewhere index with hf | ⟨chain,hc,hm⟩ | ⟨chain,hc,hm⟩
  · cases hs.symm.trans (h.freeState index hf)
  · rcases List.mem_cons.mp hm with rfl | hl
    · exact ⟨chain,hc,rfl⟩
    · cases hs.symm.trans ((h.posted chain hc).links index hl)
  · rcases List.mem_cons.mp hm with rfl | hl
    · cases hs.symm.trans (h.reaped chain hc).head
    · cases hs.symm.trans ((h.reaped chain hc).links index hl)

/-- A request leaves the device by its head being marked as reaped. -/
theorem Represents.complete (h : Represents queue pool) {before after : List (Chain q)}
    (hp : pool.posted = before++chain::after) (lastUsed : BitVec 16) (faults : DeviceFaults) :
    Represents { queue with
        state := update queue.state chain.head .reaped
        numPosted := queue.numPosted - 1
        lastUsed, faults }
      { pool with posted := before++after, reaped := chain::pool.reaped } := by
  have hmm : chain ∈ pool.posted := hp ▸ List.perm_middle.mem_iff.mpr mem_cons_self
  have hcn := fun index => count_chains hp index
  have hot : ∀ index, index ∈ pool.free ∨ (∃ other ∈ before++after, index ∈ other.members) ∨
      (∃ other ∈ pool.reaped, index ∈ other.members) → index ≠ chain.head := by
    rintro index hi rfl
    have hpl := h.places chain.head
    have hh : 0 < chain.members.count chain.head := List.count_pos_iff.mpr mem_cons_self
    rw [Pool.places,hcn] at hpl
    rcases hi with hfree | ⟨other,ho,hm⟩ | ⟨other,ho,hm⟩
    · have := List.count_pos_iff.mpr hfree
      omega
    · have hps := count_pos_of_chain ho hm
      rw [flatMap_append,count_append] at hps
      omega
    · have := count_pos_of_chain ho hm
      omega
  have hs : ∀ {index}, index ≠ chain.head →
      update queue.state chain.head .reaped index = queue.state index :=
    fun hn => update_of_ne hn _ _
  have hp' : ∀ other, other ∈ before++after → other ∈ pool.posted := fun other ho =>
    hp ▸ List.perm_middle.mem_iff.mpr (List.mem_cons_of_mem _ ho)
  constructor
  case places =>
    intro index
    have hpl := h.places index
    rw [Pool.places,hcn] at hpl
    rw [Pool.places,flatMap_append,count_append,List.flatMap_cons,count_append]
    change pool.free.count index+_+_ = 1
    omega
  case free => exact h.free
  case numFree => exact h.numFree
  case freeState => exact fun index hi => (hs (hot index (.inl hi))).trans (h.freeState index hi)
  case posted =>
    intro other ho
    exact (h.posted other (hp' other ho)).congr (fun _ _ => rfl) fun index hi =>
      hs (hot index (.inr (.inl ⟨other,ho,hi⟩)))
  case numPosted =>
    change queue.numPosted - 1 = _
    rw [h.numPosted,hp]
    simp only [length_append,List.length_cons]
    omega
  case postedLen => exact fun other ho => h.postedLen other (hp' other ho)
  case reaped =>
    intro other ho
    rcases List.mem_cons.mp ho with rfl | hold
    · have ht := h.posted other hmm
      refine ⟨ht.path,update_self _ _ _,fun index hi => (hs ?_).trans (ht.links index hi),ht.fits⟩
      rintro rfl
      -- a head that is a link as well would be in two places
      cases (ht.links _ hi).symm.trans ht.head
    · exact (h.reaped other hold).congr (fun _ _ => rfl) fun index hi =>
        hs (hot index (.inr (.inr ⟨other,hold,hi⟩)))

theorem split_chains {cs : List (Chain q)} (h : chain ∈ cs) :
    ∃ b f a, f.head = chain.head ∧ cs = b++f::a ∧ cs.eraseP (·.head = chain.head) = b++a ∧
      cs.find? (·.head = chain.head) = some f := by
  obtain ⟨f,b,a,hb,hf,hs,he⟩ :=
    List.exists_of_eraseP (p := fun o : Chain q => decide (o.head = chain.head)) h
      (by simp)
  refine ⟨b,f,a,by simpa using hf,hs,he,?_⟩
  rw [hs,List.find?_append,List.find?_eq_none.mpr hb,Option.none_or]
  exact List.find?_cons_of_pos hf

theorem Represents.head_unique (h : Represents queue pool) {o : Chain q}
    (hc : chain ∈ pool.posted) (ho : o ∈ pool.posted)
    (hh : o.head = chain.head) : o = chain := by
  by_contra hn
  obtain ⟨b,a,hs⟩ := List.append_of_mem hc
  have hr : o ∈ b++a := by
    rw [hs] at ho
    rcases List.mem_append.mp ho with hf | hl
    · exact List.mem_append_left _ hf
    · exact List.mem_append_right _ ((List.mem_cons.mp hl).resolve_left hn)
  have hp := h.places chain.head
  have hhr : 0 < chain.members.count chain.head := List.count_pos_iff.mpr mem_cons_self
  have ht := count_pos_of_chain hr (hh ▸ mem_cons_self : chain.head ∈ o.members)
  rw [flatMap_append,count_append] at ht
  rw [Pool.places,count_chains hs] at hp
  omega

theorem Represents.examine (h : Represents queue pool) (entry : BitVec 32 × BitVec 32) :
    (queue.examine entry).2.lastUsed = queue.lastUsed+1 ∧
      (((queue.examine entry).1 = none ∧ Represents (queue.examine entry).2 pool) ∨
        ∃ chain ∈ pool.posted, ∃ len ≤ chain.writable,
          (queue.examine entry).1 = some (toLink chain.head,len) ∧
            Represents (queue.examine entry).2 (pool.complete chain.head)) := by
  have hp : ∀ faults, Represents { queue with lastUsed := queue.lastUsed+1, faults } pool :=
    fun _ => { h with
      posted := fun chain hc => { h.posted chain hc with }
      reaped := fun chain hc => { h.reaped chain hc with } }
  unfold SplitVirtqueue.examine
  simp only
  split_ifs with hr hst
  · exact ⟨rfl,.inl ⟨rfl,hp _⟩⟩
  · exact ⟨rfl,.inl ⟨rfl,hp _⟩⟩
  · refine ⟨rfl,.inr ?_⟩
    obtain ⟨chain,hc,hh⟩ := h.posted_head (Decidable.not_not.mp hst)
    refine ⟨chain,hc,_,?_,by rw [hh],?_⟩
    · rw [← hh]
      exact (min_le_right _ _).trans (h.postedLen chain hc)
    · obtain ⟨before,found,after,hs,hsp,he,hf⟩ := split_chains hc
      rw [Pool.complete,he,hf,← hh,← hs]
      exact h.complete hsp _ _

/-- A poll over some readings of the region moves past at most one entry for each. -/
theorem Represents.reapNext (h : Represents queue pool) (rs : List (Region q)) : (∃ e ≤ rs.length,
        (queue.reapNext rs).2.lastUsed = queue.lastUsed+ofNat 16 e) ∧
      (((queue.reapNext rs).1 = none ∧ Represents (queue.reapNext rs).2 pool) ∨
        ∃ chain ∈ pool.posted, ∃ len ≤ chain.writable,
          (queue.reapNext rs).1 = some (toLink chain.head,len) ∧
            Represents (queue.reapNext rs).2 (pool.complete chain.head)) := by
  induction rs generalizing queue with
  | nil => exact ⟨⟨0,le_rfl,(BitVec.add_zero _).symm⟩,.inl ⟨rfl,h⟩⟩
  | cons r la ih =>
    rw [SplitVirtqueue.reapNext]
    split_ifs with hi
    · exact ⟨⟨0,Nat.zero_le _,(BitVec.add_zero _).symm⟩,.inl ⟨rfl,h⟩⟩
    obtain ⟨hl,hc⟩ := h.examine (r.usedRing (wrap q queue.lastUsed))
    generalize queue.examine (r.usedRing (wrap q queue.lastUsed)) = e at hl hc ⊢
    obtain ⟨f,l⟩ := e
    rcases hc with ⟨hn,hst⟩ | ⟨chain,hch,len,hln,hs,ha⟩
    · obtain rfl : f = none := hn
      obtain ⟨⟨c,hcn,hm⟩,hc⟩ := ih hst
      refine ⟨⟨c+1,Nat.succ_le_succ hcn,?_⟩,hc⟩
      change (l.reapNext la).2.lastUsed = _
      rw [hm,show l.lastUsed = queue.lastUsed+1 from hl,BitVec.add_assoc,
        BitVec.add_comm 1]
      exact congrArg (queue.lastUsed + ·) (BitVec.ofNat_add c 1).symm
    · obtain rfl : f = some (toLink chain.head,len) := hs
      exact ⟨⟨1,by simp,hl⟩,.inr ⟨chain,hch,len,hln,rfl,ha⟩⟩

end Reaping

/-! ### Recycling -/

section Recycling

variable {queue : SplitVirtqueue q} {pool : Pool q}

/-- What freeing a run of descriptors leaves. -/
structure Released (queue : SplitVirtqueue q) (members : List (Index q))
    (after : SplitVirtqueue q) : Prop where
  chainNext : after.chainNext = queue.chainNext
  postedLen : after.postedLen = queue.postedLen
  numPosted : after.numPosted = queue.numPosted
  lastUsed : after.lastUsed = queue.lastUsed
  numFree : after.numFree = queue.numFree+members.length
  freed : ∀ index ∈ members, after.state index = .free
  state : ∀ index, index ∉ members → after.state index = queue.state index

theorem released_one (index : Index q) : Released queue [index] (queue.freed index) where
  chainNext := rfl
  postedLen := rfl
  numPosted := rfl
  lastUsed := rfl
  numFree := rfl
  freed other ho := by
    rw [List.mem_singleton.mp ho]
    exact update_self _ _ _
  state other ho := update_of_ne (fun he => ho (List.mem_singleton.mpr he)) _ _

/-- A chain is freed from its head to its end, and each member goes in front of the free list. -/
theorem releaseFrom_spec {h : Index q} {ls f : List (Index q)} {stop : BitVec 16}
    {ss : ℕ} (hc : Path toLink queue.chainNext (toLink h) (h::ls) noLink)
    (hf : Path toLink queue.freeNext queue.freeHead f stop)
    (hn : (h::ls++f).Nodup) (hs : ls.length < ss) :
    Released queue (h::ls) (queue.releaseFrom h ss) ∧
      Path toLink (queue.releaseFrom h ss).freeNext (queue.releaseFrom h ss).freeHead
        ((h::ls).reverse++f) stop := by
  induction ls generalizing queue h f ss with
  | nil =>
    obtain ⟨ss,rfl⟩ : ∃ m, ss = m+1 := ⟨ss - 1,by omega⟩
    obtain ⟨-,he⟩ := path_cons.mp hc
    rw [SplitVirtqueue.releaseFrom,if_pos (path_nil.mp he)]
    exact ⟨released_one h,hf.push (List.nodup_cons.mp hn).1⟩
  | cons n ls ih =>
    obtain ⟨ss,rfl⟩ : ∃ m, ss = m+1 := ⟨ss - 1,by omega⟩
    obtain ⟨-,hrs⟩ := path_cons.mp hc
    obtain ⟨hln,-⟩ := path_cons.mp hrs
    obtain ⟨hh,ho⟩ := List.nodup_cons.mp hn
    have hps : Path toLink (queue.freed h).freeNext (queue.freed h).freeHead
        (h::f) stop := hf.push fun hm => hh (List.mem_append_right _ hm)
    have ha : (n::ls++h::f).Nodup := by
      rw [List.nodup_append_comm,List.cons_append,List.nodup_cons,List.nodup_append_comm]
      refine ⟨fun hm => hh ?_,ho⟩
      exact List.mem_append.mpr (List.mem_append.mp hm).symm
    have hr' : Path toLink (queue.freed h).chainNext (toLink n) (n::ls) noLink :=
      hln ▸ hrs
    obtain ⟨hr,hp⟩ := ih hr' hps ha (Nat.lt_of_succ_lt_succ hs)
    have hnt : queue.chainNext h ≠ noLink := by
      rw [hln]
      exact toLink_ne_noLink n
    rw [SplitVirtqueue.releaseFrom,if_neg hnt,hln,wrap_toLink]
    refine ⟨⟨hr.chainNext,hr.postedLen,hr.numPosted,hr.lastUsed,?_,?_,?_⟩,?_⟩
    · rw [hr.numFree]
      change queue.numFree+1+_ = _
      simp only [List.length_cons]
      omega
    · intro index hi
      by_cases hl : index ∈ n::ls
      · exact hr.freed index hl
      · rw [hr.state index hl,(List.mem_cons.mp hi).resolve_right hl]
        exact update_self _ _ _
    · intro index hi
      rw [List.mem_cons,not_or] at hi
      rw [hr.state index hi.2]
      exact update_of_ne hi.1 _ _
    · rw [List.reverse_cons,List.append_assoc]
      exact hp

variable {chain : Chain q}

theorem Represents.chain_nodup (h : Represents queue pool)
    (hc : chain ∈ pool.reaped) : (chain.members++pool.free).Nodup := by
  refine List.nodup_iff_count_le_one.mpr fun index => ?_
  obtain ⟨bf,a,hs⟩ := List.append_of_mem hc
  have hp := h.places index
  rw [Pool.places,count_chains hs] at hp
  rw [count_append]
  omega

/-- A completed request gives back exactly its own descriptors. -/
theorem Represents.recycle (h : Represents queue pool) {b a : List (Chain q)}
    (hrp : pool.reaped = b++chain::a) :
    Represents (queue.release (toLink chain.head))
      { pool with free := chain.members.reverse++pool.free, reaped := b++a } := by
  have hm : chain ∈ pool.reaped := hrp ▸ List.perm_middle.mem_iff.mpr mem_cons_self
  obtain ⟨stop,hx⟩ := h.free
  have hn := h.chain_nodup hm
  have hl : chain.links.length < q.size := by
    have ha : chain.members.length ≤ q.size := by
      have hcr := (List.nodup_append'.mp hn).1.length_le_card
      rwa [Fintype.card_fin] at hcr
    exact ha
  obtain ⟨hr,hpt⟩ :=
    releaseFrom_spec (h.reaped chain hm).path hx hn hl
  have hrl : queue.release (toLink chain.head) = queue.releaseFrom chain.head q.size := by
    rw [SplitVirtqueue.release,wrap_toLink]
  rw [hrl]
  have hc := fun index => count_chains hrp index
  -- what is neither free nor on this chain is elsewhere, and keeps its state
  have hap : ∀ o, o ∈ pool.posted ∨ o ∈ b++a →
      ∀ index ∈ o.members, index ∉ chain.members := by
    intro o ho index hi hh
    have hp := h.places index
    have hcn := List.count_pos_iff.mpr hh
    rw [Pool.places,hc] at hp
    rcases ho with hpo | hrs
    · have := count_pos_of_chain hpo hi
      omega
    · have hps := count_pos_of_chain hrs hi
      rw [flatMap_append,count_append] at hps
      omega
  have hf : ∀ {s : DescriptorState} {o : Chain q}, Threaded queue s o →
      (o ∈ pool.posted ∨ o ∈ b++a) →
      Threaded (queue.releaseFrom chain.head q.size) s o :=
    fun ht ho => ht.congr (fun index _ => congrFun hr.chainNext index)
      fun index hi => hr.state index (hap _ ho index hi)
  constructor
  case places =>
    intro index
    have hp := h.places index
    rw [Pool.places,hc] at hp
    rw [Pool.places,count_append,List.count_reverse,flatMap_append,count_append]
    change chain.members.count index+pool.free.count index +
      (pool.posted.flatMap Chain.members).count index+_ = 1
    omega
  case free => exact ⟨stop,hpt⟩
  case numFree =>
    rw [hr.numFree,h.numFree,length_append,List.length_reverse]
    exact Nat.add_comm _ _
  case freeState =>
    intro index hi
    rcases List.mem_append.mp hi with hh | hw
    · exact hr.freed index (List.mem_reverse.mp hh)
    · rw [hr.state]
      · exact h.freeState index hw
      · exact fun hh => (List.nodup_append'.mp hn).2.2 hh hw
  case posted => exact fun o ho => hf (h.posted o ho) (.inl ho)
  case numPosted => exact hr.numPosted.trans h.numPosted
  case postedLen =>
    rw [hr.postedLen]
    exact h.postedLen
  case reaped =>
    intro o ho
    refine hf (h.reaped o ?_) (.inr ho)
    rw [hrp]
    exact List.perm_middle.mem_iff.mpr (List.mem_cons_of_mem _ ho)

theorem Represents.recycle_head (h : Represents queue pool) (hc : chain ∈ pool.reaped) :
    Represents (queue.release (toLink chain.head)) (pool.recycle chain.head) := by
  obtain ⟨bf,f,a,hs,hsp,he,hf⟩ := split_chains hc
  rw [Pool.recycle,he,hf,← hs]
  simpa using h.recycle hsp

end Recycling

/-! ### Every run -/

namespace Driver

/-- A completion that is held is of a request that was reaped. -/
structure Sound (driver : Driver q) : Prop where
  represents : Represents driver.queue driver.pool
  hand : ∀ head, driver.hand = some head → ∃ chain ∈ driver.pool.reaped, toLink chain.head = head

theorem sound_start (q : QueueSize) : Sound (start q) := ⟨represents_new q,nofun⟩

theorem Sound.step {d : Driver q} (h : Sound d) (e : Event q) : Sound (d.step e) := by
  cases e with
  | addChain ss =>
    rw [Driver.step]
    by_cases hrf : ss = [] ∨ d.queue.numFree < ss.length
    · rw [SplitVirtqueue.addChain,if_pos hrf]
      exact ⟨h.represents,nofun⟩
    · rw [not_or,not_lt] at hrf
      obtain ⟨hd,l,-,hs,ha⟩ := h.represents.publish hrf.1 hrf.2
      generalize d.queue.addChain ss = added at hs ha ⊢
      obtain ⟨a,queue⟩ := added
      obtain rfl : a = some (toLink hd) := hs
      exact ⟨ha,nofun⟩
  | poll rs =>
    rw [Driver.step,SplitVirtqueue.poll]
    obtain ⟨-,hcs⟩ := h.represents.reapNext (List.ofFn rs)
    generalize d.queue.reapNext (List.ofFn rs) = polled at hcs ⊢
    obtain ⟨a,queue⟩ := polled
    rcases hcs with ⟨hn,hst⟩ | ⟨chain,hc,len,hl,hs,ha⟩
    · obtain rfl : a = none := hn
      exact ⟨hst,nofun⟩
    · obtain rfl : a = some (toLink chain.head,len) := hs
      obtain ⟨bf,f,af,hsm,-,-,hf⟩ := split_chains hc
      simp only [wrap_toLink]
      refine ⟨ha,?_⟩
      rintro hd ⟨⟩
      refine ⟨f,?_,by rw [hsm]⟩
      change f ∈ (d.pool.posted.find? (·.head = chain.head)).toList++d.pool.reaped
      rw [hf]
      exact mem_cons_self
  | recycle =>
    rw [Driver.step]
    cases hh : d.hand with
    | none => exact h
    | some hd =>
      obtain ⟨chain,hc,rfl⟩ := h.hand hd hh
      simp only [wrap_toLink]
      exact ⟨h.represents.recycle_head hc,nofun⟩
  | device r =>
    have hr := h.represents
    exact ⟨{ hr with
      posted := fun chain hc => { hr.posted chain hc with }
      reaped := fun chain hc => { hr.reaped chain hc with } },h.hand⟩

theorem sound_run (q : QueueSize) (es : List (Event q)) : Sound (run step (start q) es) :=
  run_invariant (fun _ e h => h.step e) (sound_start q) es

end Driver

/-- Whatever the device writes and whenever it does, over every run of a queue of every size:
the descriptors are partitioned into the free list, the requests the device has and those it
completed; a poll looks at no more entries than the queue has; what it accepts is exactly one of
the requests published and not completed since, and reports no more than can be written there;
recycling it frees exactly its descriptors; and publishing takes exactly the length of the
request or changes nothing. -/
theorem descriptors_accounted (q : QueueSize) (events : List (Event q)) :
    let driver := run Driver.step (Driver.start q) events
    Represents driver.queue driver.pool ∧
      (∀ regions, ∃ examined ≤ q.size, (driver.queue.poll regions).2.lastUsed =
        driver.queue.lastUsed+ofNat 16 examined) ∧
      (∀ regions head len, (driver.queue.poll regions).1 = some (head,len) →
        (∃! chain, chain ∈ driver.pool.posted ∧ toLink chain.head = head) ∧
          ∀ chain ∈ driver.pool.posted, toLink chain.head = head → len ≤ chain.writable) ∧
      (∀ head, driver.hand = some head → ∃ chain ∈ driver.pool.reaped, toLink chain.head = head ∧
        ∀ index, (driver.queue.release head).state index = .free ↔
          driver.queue.state index = .free ∨ index ∈ chain.members) ∧
      ∀ segments, driver.queue.addChain segments = (none,driver.queue) ∨
        ∃ head, (driver.queue.addChain segments).1 = some head ∧ segments ≠ [] ∧
          (driver.queue.addChain segments).2.numFree+segments.length = driver.queue.numFree := by
  intro driver
  have hsn : Driver.Sound driver := Driver.sound_run q events
  have h := hsn.represents
  refine ⟨h,?_,?_,?_,?_⟩
  · intro regions
    obtain ⟨⟨examined,hle,hl⟩,-⟩ := h.reapNext (List.ofFn regions)
    exact ⟨examined,by simpa using hle,hl⟩
  · intro regions head len hp
    obtain ⟨-,⟨hn,-⟩ | ⟨chain,hc,f,hln,hsm,-⟩⟩ :=
      h.reapNext (List.ofFn regions)
    · cases hn.symm.trans hp
    · cases hsm.symm.trans hp
      have hu : ∀ o ∈ driver.pool.posted, toLink o.head = toLink chain.head →
          o = chain := by
        intro o ho hs
        refine h.head_unique hc ho ?_
        rw [← wrap_toLink o.head,hs,wrap_toLink]
      refine ⟨⟨chain,⟨hc,rfl⟩,fun o ho => hu o ho.1 ho.2⟩,?_⟩
      intro o ho hs
      rw [hu o ho hs]
      exact hln
  · intro head hh
    obtain ⟨chain,hc,rfl⟩ := hsn.hand head hh
    refine ⟨chain,hc,rfl,fun index => ?_⟩
    obtain ⟨bf,a,hsp⟩ := List.append_of_mem hc
    rw [(h.recycle hsp).free_iff,h.free_iff,List.mem_append,List.mem_reverse]
    exact Or.comm
  · intro segments
    by_cases hr : segments = [] ∨ driver.queue.numFree < segments.length
    · exact .inl (if_pos hr)
    · rw [not_or,not_lt] at hr
      obtain ⟨head,l,hc,hsm,ha⟩ := h.publish hr.1 hr.2
      refine .inr ⟨_,hsm,hr.1,?_⟩
      rw [ha.numFree,Pool.publish,hc,h.numFree]
      have hf := hr.2
      rw [h.numFree] at hf
      simp only [List.length_drop]
      omega

/-- A queue of four descriptors. -/
def four : QueueSize := ⟨4,⟨2,rfl⟩,by decide,by decide⟩

/-- A device that completes no descriptor of the queue, then the tail of a chain, then its head
with more than was posted. -/
def hostile : Region four :=
  { Region.zero four with
    usedIdx := 3
    usedRing := fun index => if index.val = 0 then (9,1) else if index.val = 1 then (0,1)
      else (1,5000) }

/-- The first two completions are refused, the third is cut, and recycling frees both
descriptors. -/
example :
    let posted := (Driver.start four).step (.addChain [⟨0,16,false⟩,⟨64,100,true⟩])
    let reaped := posted.step (.poll fun _ => hostile)
    (posted.queue.poll fun _ => hostile).1 = some (1,100) ∧
      (reaped.queue.faults.completionOutOfRange,reaped.queue.faults.completionNotPosted,
        reaped.queue.faults.completionLengthOverReported) = (1,1,1) ∧
      reaped.queue.numFree = 2 ∧ (reaped.step .recycle).queue.numFree = 4 := by
  decide +kernel

end LibreFirewall.Virtqueues

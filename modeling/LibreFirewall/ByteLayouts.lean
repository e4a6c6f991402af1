import Mathlib

/-!
# Fixed layouts of bytes

Numbers as little-endian bytes, and images made of consecutive fields: what a field of
an image is, that an image is the sequence of its fields, and how a field is found in
an image that was put together from pieces.
-/

namespace LibreFirewall.ByteLayouts

open BitVec (ofNat toNat_ofNat)

/-- The low `n` bytes of a number, least significant first. -/
def toLe : ℕ → ℕ → List (BitVec 8)
  | 0, _ => []
  | n+1, value => ofNat 8 value::toLe n (value / 256)

def ofLe : List (BitVec 8) → ℕ
  | [] => 0
  | byte::bytes => byte.toNat+256*ofLe bytes

@[simp] theorem length_toLe (n v : ℕ) : (toLe n v).length = n := by
  induction n generalizing v with
  | zero => rfl
  | succ n ih => simp [toLe,ih]

theorem toLe_zero (n : ℕ) : toLe n 0 = List.replicate n 0 := by
  induction n with
  | zero => rfl
  | succ n ih =>
    rw [toLe,Nat.zero_div,ih]
    rfl

theorem ofLe_toLe (n v : ℕ) : ofLe (toLe n v) = v % 256^n := by
  induction n generalizing v with
  | zero => simp [toLe,ofLe,Nat.mod_one]
  | succ n ih =>
    have hp : 256^(n+1) = 256*256^n := by ring
    rw [toLe,ofLe,ih,toNat_ofNat,hp,Nat.mod_mul]

variable {n s : ℕ} {bytes image : List (BitVec 8)}

theorem ofLe_toLe_of_lt {v : ℕ} (h : v < 256^n) : ofLe (toLe n v) = v := by
  rw [ofLe_toLe,Nat.mod_eq_of_lt h]

theorem toLe_ofLe (bytes : List (BitVec 8)) : toLe bytes.length (ofLe bytes) = bytes := by
  induction bytes with
  | nil => rfl
  | cons b bytes ih =>
    have hb : b.toNat < 256 := b.isLt
    have hl : ofNat 8 (b.toNat+256*ofLe bytes) = b := by
      apply BitVec.eq_of_toNat_eq
      rw [toNat_ofNat]
      omega
    have hh : (b.toNat+256*ofLe bytes) / 256 = ofLe bytes := by omega
    rw [List.length_cons,toLe,ofLe,hl,hh,ih]

theorem toLe_ofLe_of_length (h : bytes.length = n) : toLe n (ofLe bytes) = bytes := by
  rw [← h,toLe_ofLe]

theorem ofLe_lt (bytes : List (BitVec 8)) : ofLe bytes < 256^bytes.length := by
  induction bytes with
  | nil => simp [ofLe]
  | cons b bytes ih =>
    have hb : b.toNat < 256 := b.isLt
    rw [ofLe,List.length_cons,pow_succ]
    omega

theorem ofLe_lt_of_length (h : bytes.length ≤ n) : ofLe bytes < 256^n :=
  lt_of_lt_of_le (ofLe_lt bytes) (Nat.pow_le_pow_right (by decide) h)

/-- The low `n` bytes of a number, most significant first. -/
def toBe (n value : ℕ) : List (BitVec 8) := (toLe n value).reverse

def ofBe (bytes : List (BitVec 8)) : ℕ := ofLe bytes.reverse

@[simp] theorem length_toBe (n v : ℕ) : (toBe n v).length = n := by
  rw [toBe,List.length_reverse,length_toLe]

theorem ofBe_toBe (n v : ℕ) : ofBe (toBe n v) = v % 256^n := by
  rw [ofBe,toBe,List.reverse_reverse,ofLe_toLe]

theorem toBe_ofBe_of_length (h : bytes.length = n) : toBe n (ofBe bytes) = bytes := by
  rw [toBe,ofBe,toLe_ofLe_of_length (by rwa [List.length_reverse]),List.reverse_reverse]

theorem ofBe_lt_of_length (h : bytes.length ≤ n) : ofBe bytes < 256^n :=
  ofLe_lt_of_length (by rwa [List.length_reverse])

section Fields

variable {α : Type*}

/-- The `len` elements of an image that start at offset `start`. -/
def field (image : List α) (start len : ℕ) : List α := (image.drop start).take len

/-- The consecutive fields of the given widths, from an offset on. -/
def cut (image : List α) : ℕ → List ℕ → List (List α)
  | _, [] => []
  | start, width::widths => field image start width::cut image (start+width) widths

variable {len : ℕ}

theorem length_field {image : List α} {st : ℕ} (h : st+len ≤ image.length) :
    (field image st len).length = len := by
  rw [field,List.length_take,List.length_drop]
  omega

theorem flatten_cut (image : List α) (st : ℕ) (ws : List ℕ) :
    (cut image st ws).flatten = field image st ws.sum := by
  induction ws generalizing st with
  | nil => simp [cut,field]
  | cons w ws ih =>
    rw [cut,List.flatten_cons,ih,List.sum_cons]
    simp only [field]
    rw [List.take_add,List.drop_drop]

/-- Pieces put one after another are the fields of their own widths. -/
theorem cut_flatten (ps : List (List α)) (r f : List α) :
    cut (f++(ps.flatten++r)) f.length (ps.map List.length) = ps := by
  induction ps generalizing f with
  | nil => rfl
  | cons p ps ih =>
    have ht := ih (f++p)
    simp only [List.length_append,List.append_assoc] at ht
    simp only [List.map_cons,cut,List.flatten_cons,List.append_assoc,ht]
    rw [field,List.drop_left,List.take_left]

theorem field_append_self {p r : List α} (h : p.length = len) : field (p++r) 0 len = p := by
  rw [field,List.drop_zero,← h,List.take_left']
  rfl

theorem field_append_of_le {p r : List α} {st : ℕ} (h : p.length ≤ st) :
    field (p++r) st len = field r (st - p.length) len := by
  rw [field,field,List.drop_append,List.drop_eq_nil_of_le h,List.nil_append]

theorem field_append_left {p r : List α} {st : ℕ}
    (h : st+len ≤ p.length) : field (p++r) st len = field p st len := by
  simp only [field]
  rw [List.drop_append_of_le_length (by omega),List.take_append_of_le_length]
  rw [List.length_drop]
  omega

theorem field_eq_self {image : List α} (h : image.length = len) : field image 0 len = image := by
  rw [field,List.drop_zero,← h,List.take_length]

theorem field_field {image : List α} {st len s' l' : ℕ} (h : s'+l' ≤ len) :
    field (field image st len) s' l' = field image (st+s') l' := by
  simp only [field]
  rw [List.drop_take,List.take_take,List.drop_drop,Nat.min_eq_left (by omega)]

theorem field_flatMap {β : Type*} {f : β → List α} {w : ℕ} (hw : ∀ b, (f b).length = w)
    (es : List β) (r : List α) {i st len : ℕ} (hi : i < es.length)
    (hln : st+len ≤ w) :
    field (es.flatMap f++r) (i*w+st) len = field (f es[i]) st len := by
  induction es generalizing i with
  | nil => cases hi
  | cons e es ih =>
    rw [List.flatMap_cons,List.append_assoc]
    cases i with
    | zero =>
      rw [Nat.zero_mul,Nat.zero_add,field_append_left (by rw [hw]; exact hln)]
      rfl
    | succ i =>
      have hs : (i+1)*w+st - (f e).length = i*w+st := by
        rw [hw,Nat.succ_mul]
        omega
      have hl : (f e).length ≤ (i+1)*w+st := by
        rw [hw,Nat.succ_mul]
        omega
      rw [field_append_of_le hl,hs]
      exact ih (Nat.lt_of_succ_lt_succ hi)

theorem field_mul (image : List α) (st c w : ℕ) : field image st (c*w) =
      (List.range c).flatMap fun i => field image (st+i*w) w := by
  induction c with
  | zero => simp [field]
  | succ c ih =>
    rw [List.range_succ,List.flatMap_append,← ih,Nat.succ_mul]
    simp only [field,List.flatMap_singleton]
    rw [List.take_add,List.drop_drop]

/-- Entries that each come out as an indexed piece come out as the pieces in turn. -/
theorem flatMap_eq_range {β : Type*} {es : List β} {f : β → List α} {p : ℕ → List α}
    (h : ∀ i (hi : i < es.length), f es[i] = p i) :
    es.flatMap f = (List.range es.length).flatMap p := by
  have hm : es.map f = (List.range es.length).map p := by
    apply List.ext_getElem
    · simp
    · intro i hi _
      simpa using h i (by simpa using hi)
  rw [List.flatMap_def,hm,List.flatMap_def]

end Fields

/-- A `u16`, `u32` or `u64` field. -/
def readU16 (image : List (BitVec 8)) (start : ℕ) : BitVec 16 :=
  ofNat 16 (ofLe (field image start 2))

def readU32 (image : List (BitVec 8)) (start : ℕ) : BitVec 32 :=
  ofNat 32 (ofLe (field image start 4))

def readU64 (image : List (BitVec 8)) (start : ℕ) : BitVec 64 :=
  ofNat 64 (ofLe (field image start 8))

theorem ofNat_ofLe_toLe (w n : ℕ) (h : 256^n = 2^w) (v : BitVec w) :
    ofNat w (ofLe (toLe n v.toNat)) = v := by
  rw [ofLe_toLe,h,Nat.mod_eq_of_lt v.isLt,BitVec.ofNat_toNat,BitVec.setWidth_eq]

theorem toNat_ofLe_toLe {w v : ℕ} (h : 256^n = 2^w) (hv : v < 2^w) :
    (ofNat w (ofLe (toLe n v))).toNat = v := by
  rw [ofLe_toLe,h,Nat.mod_eq_of_lt hv,toNat_ofNat,Nat.mod_eq_of_lt hv]

theorem toLe_readU64 (h : s+8 ≤ image.length) :
    toLe 8 (readU64 image s).toNat = field image s 8 := by
  have hl := length_field h
  have hlt : ofLe (field image s 8) < 2^64 := by
    have := ofLe_lt (field image s 8)
    rwa [hl] at this
  rw [readU64,toNat_ofNat,Nat.mod_eq_of_lt hlt,toLe_ofLe_of_length hl]

theorem toLe_readU32 (h : s+4 ≤ image.length) :
    toLe 4 (readU32 image s).toNat = field image s 4 := by
  have hl := length_field h
  have hlt : ofLe (field image s 4) < 2^32 := by
    have := ofLe_lt (field image s 4)
    rwa [hl] at this
  rw [readU32,toNat_ofNat,Nat.mod_eq_of_lt hlt,toLe_ofLe_of_length hl]

theorem toLe_readU16 (h : s+2 ≤ image.length) :
    toLe 2 (readU16 image s).toNat = field image s 2 := by
  have hl := length_field h
  have hlt : ofLe (field image s 2) < 2^16 := by
    have := ofLe_lt (field image s 2)
    rwa [hl] at this
  rw [readU16,toNat_ofNat,Nat.mod_eq_of_lt hlt,toLe_ofLe_of_length hl]

/-- `width` bytes from `start`; a source too short leaves the rest zero. -/
def readArray (width : ℕ) (image : List (BitVec 8)) (start : ℕ) : Vector (BitVec 8) width :=
  Vector.ofFn fun i => image.getD (start+i) 0

theorem toList_readArray {w : ℕ} {image : List (BitVec 8)} {st : ℕ} (h : st+w ≤ image.length) :
    (readArray w image st).toList = field image st w := by
  apply List.ext_getElem
  · rw [length_field h]
    simp
  · intro i hi _
    have hl : i < w := by simpa using hi
    simp [readArray,field,List.getD,List.getElem?_eq_getElem (by omega : st+i < image.length)]

theorem readArray_eq {w : ℕ} {a : Vector (BitVec 8) w} (h : s+w ≤ image.length)
    (hf : field image s w = a.toList) : readArray w image s = a := by
  apply Vector.toList_inj.mp
  rw [toList_readArray h,hf]

/-- The entries a reader finds at the first `count` indices, if it finds all of them. -/
def readTable {β : Type*} (read : ℕ → Option β) : ℕ → Option (List β)
  | 0 => some []
  | count+1 =>
    match readTable read count, read count with
    | some entries, some entry => some (entries++[entry])
    | _, _ => none

theorem readTable_eq_some {β : Type*} {r : ℕ → Option β} {c : ℕ} {es : List β} :
    readTable r c = some es ↔ es.length = c ∧ ∀ i (h : i < es.length), r i = some es[i] := by
  induction c generalizing es with
  | zero =>
    rw [readTable,Option.some.injEq,eq_comm,List.length_eq_zero_iff]
    constructor
    · rintro rfl
      simp
    · exact fun h => h.1
  | succ c ih =>
    constructor
    · intro h
      simp only [readTable] at h
      split at h
      · rename_i f l hf hls
        obtain ⟨hl,ha⟩ := ih.mp hf
        injection h with h
        subst h
        refine ⟨by simp [hl],fun i hi => ?_⟩
        by_cases hlt : i < f.length
        · rw [List.getElem_append_left hlt]
          exact ha i hlt
        · have he : i = c := by
            simp [hl] at hi hlt
            omega
          rw [List.getElem_append_right (by omega)]
          simpa [he] using hls
      · cases h
    · rintro ⟨hl,ha⟩
      obtain ⟨f,l,rfl⟩ : ∃ f l, es = f++[l] :=
        ⟨es.dropLast,es.getLast (by rintro rfl; cases hl),
          (List.dropLast_append_getLast _).symm⟩
      have hf : f.length = c := by simpa using hl
      have hr : readTable r c = some f := by
        refine ih.mpr ⟨hf,fun i hi => ?_⟩
        have := ha i (by simp; omega)
        rwa [List.getElem_append_left hi] at this
      have hls : r c = some l := by
        have := ha c (by simp [hf])
        rwa [List.getElem_append_right (by omega),List.getElem_singleton] at this
      simp [readTable,hr,hls]

end LibreFirewall.ByteLayouts

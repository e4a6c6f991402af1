import LibreFirewall.StateRecords

/-!
# A stored identity and the key its certificate binds

`verify` of `store/src/identity.rs` looks for the encoding of the appliance's key anywhere in
the stored certificate. The walk of `package/src/certificate.rs` descends to the element of the
signed body that binds a key. What the walk finds is part of the certificate, so a certificate
that binds the key is accepted; one that carries the encoding anywhere else is accepted as well.

The curve and the digest are parameters: `p256` is the public point a scalar derives, or none
for a scalar that is no private key.
-/

namespace LibreFirewall.IdentityChecks

open ByteLayouts StateRecords
open NetHeaders (Octet)
open CaptureRings (u64Max)

section Writer

inductive DerError where
  | outOfSpace (needed : ℕ)
  | tooLong (bytes : ℕ)

def bitString : Octet := 0x03

def objectIdentifier : Octet := 0x06

def sequence : Octet := 0x30

def maxHeader : ℕ := 5

def encodeHeader (tag : Octet) (length : ℕ) : Except DerError (List Octet) :=
  if length < 0x80 then .ok [tag,BitVec.ofNat 8 length]
  else if length ≤ 0xff then .ok (tag::0x81::toBe 1 length)
  else if length ≤ 0xffff then .ok (tag::0x82::toBe 2 length)
  else if length ≤ 0xffffff then .ok (tag::0x83::toBe 3 length)
  else .error (.tooLong length)

/-- What is written from a place on in a buffer of some room. -/
abbrev Writer := ℕ → ℕ → Except DerError (List Octet)

namespace Writer

def bytes (content : List Octet) : Writer := fun room place =>
  if room < place+content.length then .error (.outOfSpace (place+content.length))
  else .ok content

def andThen (first second : Writer) : Writer := fun room place =>
  match first room place with
  | .error error => .error error
  | .ok written => (second room (place+written.length)).map (written ++ ·)

def header (tag : Octet) (length : ℕ) : Writer := fun room place =>
  match encodeHeader tag length with
  | .error error => .error error
  | .ok encoded => bytes encoded room place

def primitive (tag : Octet) (content : List Octet) : Writer :=
  (header tag content.length).andThen (bytes content)

/-- The content is written past a reserved header and moved back over what is left of it. -/
def constructed (tag : Octet) (body : Writer) : Writer := fun room place =>
  if room < place+maxHeader then .error (.outOfSpace (place+maxHeader))
  else
    match body room (place+maxHeader) with
    | .error error => .error error
    | .ok content => (encodeHeader tag content.length).map (· ++ content)

def bits (content : List Octet) : Writer :=
  (header bitString (content.length+1)).andThen ((bytes [0]).andThen (bytes content))

end Writer

def ecPublicKey : List Octet := [0x2a,0x86,0x48,0xce,0x3d,0x02,0x01]

def prime256v1 : List Octet := [0x2a,0x86,0x48,0xce,0x3d,0x03,0x01,0x07]

def spkiLen : ℕ := 91

def writerSlack : ℕ := 16

def writeSpki (publicKey : Vector Octet 65) : Writer :=
  .constructed sequence (.andThen (.constructed sequence
      (.andThen (.primitive objectIdentifier ecPublicKey) (.primitive objectIdentifier prime256v1)))
    (.bits publicKey.toList))

def spki (publicKey : Vector Octet 65) : Except DerError (List Octet) :=
  match writeSpki publicKey (spkiLen+writerSlack) 0 with
  | .error error => .error error
  | .ok written =>
    if written.length = spkiLen then .ok written else .error (.outOfSpace written.length)

/-- The one encoding of a key: the curve's identifiers and the point. -/
def keyInfo (publicKey : Vector Octet 65) : List Octet :=
  [0x30,0x59,0x30,0x13,0x06,0x07]++ecPublicKey++[0x06,0x08]++prime256v1 ++
    [0x03,0x42,0]++publicKey.toList

theorem length_keyInfo (k : Vector Octet 65) : (keyInfo k).length = spkiLen := by
  simp [keyInfo,ecPublicKey,prime256v1,spkiLen]

/-- The scratch buffer has room for the headers that are open, so no key is refused. -/
theorem spki_eq (k : Vector Octet 65) : spki k = .ok (keyInfo k) := by
  have hw : writeSpki k (spkiLen+writerSlack) 0 = .ok (keyInfo k) := by
    simp [writeSpki,Writer.constructed,Writer.andThen,Writer.primitive,Writer.header,
      Writer.bytes,Writer.bits,encodeHeader,ecPublicKey,prime256v1,keyInfo,spkiLen,writerSlack,
      maxHeader,sequence,objectIdentifier,bitString,Except.map]
  rw [spki,hw]
  exact if_pos (length_keyInfo k)

end Writer

section Walk

inductive Element where
  | certificate
  | tbsCertificate
  | version
  | serialNumber
  | signatureAlgorithm
  | issuer
  | validity
  | subject
  | subjectPublicKeyInfo
deriving DecidableEq

inductive CertificateError where
  | truncatedDer (element : Element)
  | unexpectedTag (element : Element)
  | indefiniteLength (element : Element)
  | nonMinimalLength (element : Element)
  | lengthOutOfRange (element : Element)
  | trailingDer
deriving DecidableEq

def integer : Octet := 0x02

def contextZero : Octet := 0xa0

/-- A definite length in the fewest octets. The source multiplies and adds digit by digit, and
leaves the range of a `usize` exactly when the whole number does. -/
def readLength (bytes : List Octet) (element : Element) :
    Except CertificateError (ℕ × List Octet) :=
  match bytes with
  | [] => .error (.truncatedDer element)
  | first::rest =>
    if first < 0x80 then .ok (first.toNat,rest)
    else
      let octets := (first &&& 0x7f).toNat
      let length := ofBe (rest.take octets)
      if octets = 0 then .error (.indefiniteLength element)
      else if rest.length < octets then .error (.truncatedDer element)
      else if rest.head? = some 0 then .error (.nonMinimalLength element)
      else if u64Max < length then .error (.lengthOutOfRange element)
      else if length < 0x80 then .error (.nonMinimalLength element)
      else .ok (length,rest.drop octets)

/-- One element's content and what follows it. -/
def readTlv (bytes : List Octet) (element : Element) (expected : Octet) :
    Except CertificateError (List Octet × List Octet) :=
  match bytes with
  | [] => .error (.truncatedDer element)
  | tag::afterTag =>
    if tag ≠ expected then .error (.unexpectedTag element)
    else
      match readLength afterTag element with
      | .error error => .error error
      | .ok (length,afterLength) =>
        if afterLength.length < length then .error (.truncatedDer element)
        else .ok (afterLength.take length,afterLength.drop length)

def wholeTlv (bytes : List Octet) (element : Element) (expected : Octet) :
    Except CertificateError (List Octet) :=
  (readTlv bytes element expected).map fun read => bytes.take (bytes.length - read.2.length)

/-- The elements of the signed body ahead of the key, in their order. -/
def leading : List (Element × Octet) :=
  [(.version,contextZero),(.serialNumber,integer),(.signatureAlgorithm,sequence),
    (.issuer,sequence),(.validity,sequence),(.subject,sequence)]

/-- What is left of a body once the elements named are read off its front. -/
def skipped (body : List Octet) : List (Element × Octet) → Except CertificateError (List Octet)
  | [] => .ok body
  | (element,expected)::rest =>
    match readTlv body element expected with
    | .error error => .error error
    | .ok read => skipped read.2 rest

def subjectPublicKeyInfo (der : List Octet) : Except CertificateError (List Octet) :=
  match readTlv der .certificate sequence with
  | .error error => .error error
  | .ok (certificate,after) =>
    if after ≠ [] then .error .trailingDer
    else
      match readTlv certificate .tbsCertificate sequence with
      | .error error => .error error
      | .ok (tbs,_) =>
        match skipped tbs leading with
        | .error error => .error error
        | .ok rest => wholeTlv rest .subjectPublicKeyInfo sequence

variable {bytes rest : List Octet} {element : Element} {expected : Octet}

theorem readLength_suffix {n : ℕ} (h : readLength bytes element = .ok (n,rest)) :
    rest <:+ bytes := by
  unfold readLength at h
  split at h
  · cases h
  · rename_i first t
    have hs := List.suffix_cons first t
    dsimp only at h
    split_ifs at h <;> cases h
    · exact hs
    · exact (List.drop_suffix _ _).trans hs

/-- Both halves of what is read lie in the bytes it is read from. -/
theorem readTlv_parts {r : List Octet × List Octet}
    (h : readTlv bytes element expected = .ok r) : r.1 <:+: bytes ∧ r.2 <:+ bytes := by
  unfold readTlv at h
  split at h
  · cases h
  rename_i tag ata
  split_ifs at h
  split at h
  · cases h
  rename_i length afterLength hl
  have hs := (readLength_suffix hl).trans (List.suffix_cons tag ata)
  split_ifs at h
  cases h
  exact ⟨(List.take_prefix _ _).isInfix.trans hs.isInfix,(List.drop_suffix _ _).trans hs⟩

theorem skipped_suffix {el : List (Element × Octet)} (h : skipped bytes el = .ok rest) :
    rest <:+ bytes := by
  induction el generalizing bytes with
  | nil =>
    cases h
    exact List.suffix_rfl
  | cons e es ih =>
    rw [skipped] at h
    split at h
    · cases h
    · rename_i read hr
      exact (ih h).trans (readTlv_parts hr).2

/-- The field the walk reaches is part of the certificate. -/
theorem subjectPublicKeyInfo_within {i : List Octet} (h : subjectPublicKeyInfo bytes = .ok i) :
    i <:+: bytes := by
  unfold subjectPublicKeyInfo at h
  split at h
  · cases h
  rename_i certificate after hc
  split_ifs at h
  split at h
  · cases h
  rename_i tbs _ ht
  split at h
  · cases h
  rename_i rest hr
  have hi : rest <:+: bytes := (skipped_suffix hr).isInfix.trans
    ((readTlv_parts ht).1.trans (readTlv_parts hc).1)
  unfold wholeTlv at h
  cases hw : readTlv rest .subjectPublicKeyInfo sequence with
  | error error =>
    rw [hw] at h
    cases h
  | ok read =>
    rw [hw] at h
    cases h
    exact (List.take_prefix _ _).isInfix.trans hi

end Walk

section Verify

inductive IdentityError where
  | fingerprint (error : DerError)
  | scalarUnusable
  | publicKeyMismatch
  | certificateKeyMismatch
  | certificateAbsent

structure Identity where
  device : Vector Octet 16
  fingerprint : Vector Octet 32

/-- Whether some window of one run of bytes is another. -/
def contains (haystack needle : List Octet) : Bool :=
  needle.length ≤ haystack.length &&
    (List.range (haystack.length - needle.length+1)).any fun start =>
      field haystack start needle.length == needle

theorem contains_iff {haystack n : List Octet} : contains haystack n = true ↔ n <:+: haystack := by
  simp only [contains,Bool.and_eq_true,decide_eq_true_eq,List.any_eq_true,List.mem_range,
    beq_iff_eq]
  constructor
  · rintro ⟨-,s,-,hw⟩
    rw [← hw]
    exact (List.take_prefix _ _).isInfix.trans (List.drop_suffix _ _).isInfix
  · rintro ⟨b,a,rfl⟩
    refine ⟨by simp only [List.length_append]; omega,b.length,?_,?_⟩
    · simp only [List.length_append]
      omega
    · rw [field,List.append_assoc,List.drop_left,List.take_left]

variable (p256 : Vector Octet 32 → Option (Vector Octet 65))
  (sha256 : List Octet → Vector Octet 32) (state : State)

def spkiFingerprint (publicKey : Vector Octet 65) : Except DerError (Vector Octet 32) :=
  (spki publicKey).map sha256

def verify : Except IdentityError Identity :=
  match p256 state.secret with
  | none => .error .scalarUnusable
  | some derived =>
    if derived ≠ state.publicKey then .error .publicKeyMismatch
    else if state.deviceCertificate.bytes = [] then .error .certificateAbsent
    else
      match spki derived with
      | .error error => .error (.fingerprint error)
      | .ok info =>
        if contains state.deviceCertificate.bytes info = false then .error .certificateKeyMismatch
        else
          match spkiFingerprint sha256 derived with
          | .error error => .error (.fingerprint error)
          | .ok fingerprint => .ok ⟨state.deviceId,fingerprint⟩

/-- A state is accepted when its scalar derives its point and the point's encoding is found. -/
theorem verify_ok_iff : (∃ i, verify p256 sha256 state = .ok i) ↔
    p256 state.secret = some state.publicKey ∧
      contains state.deviceCertificate.bytes (keyInfo state.publicKey) = true := by
  unfold verify
  cases hd : p256 state.secret with
  | none => simp
  | some d =>
    by_cases hk : d = state.publicKey
    · subst hk
      have hf : spkiFingerprint sha256 state.publicKey =
          .ok (sha256 (keyInfo state.publicKey)) := by
        rw [spkiFingerprint,spki_eq,Except.map]
      have he : contains [] (keyInfo state.publicKey) = false := by
        rw [contains,length_keyInfo]
        rfl
      by_cases hc : state.deviceCertificate.bytes = []
      · simp [hc,he]
      · simp only [ne_eq,not_true_eq_false,if_false,hc,spki_eq,hf,true_and]
        cases contains state.deviceCertificate.bytes (keyInfo state.publicKey) <;> simp
    · simp [hk]

/-- A certificate that binds the key is accepted for it. -/
theorem bound_accepted (hp : p256 state.secret = some state.publicKey)
    (hb : subjectPublicKeyInfo state.deviceCertificate.bytes = .ok (keyInfo state.publicKey)) :
    ∃ i, verify p256 sha256 state = .ok i :=
  (verify_ok_iff p256 sha256 state).mpr ⟨hp,contains_iff.mpr (subjectPublicKeyInfo_within hb)⟩

/-- Acceptance says that the certificate binds the appliance's key exactly where, of an agreeing
key pair, the key's encoding lies nowhere in the certificate's bytes unless the field that binds
a key is that encoding. -/
theorem accepted_binds_iff : (∀ identity, verify p256 sha256 state = .ok identity →
      subjectPublicKeyInfo state.deviceCertificate.bytes = .ok (keyInfo state.publicKey)) ↔
    (p256 state.secret = some state.publicKey → ∀ before after,
      state.deviceCertificate.bytes = before++keyInfo state.publicKey++after →
      subjectPublicKeyInfo state.deviceCertificate.bytes = .ok (keyInfo state.publicKey)) := by
  have hv := verify_ok_iff p256 sha256 state
  constructor
  · intro h hp before after ho
    obtain ⟨identity,hi⟩ := hv.mpr ⟨hp,contains_iff.mpr ⟨before,after,ho.symm⟩⟩
    exact h identity hi
  · intro h identity hi
    obtain ⟨hp,hc⟩ := hv.mp ⟨identity,hi⟩
    obtain ⟨before,after,ho⟩ := contains_iff.mp hc
    exact h hp before after ho.symm

def uncompressed (x y : ℕ) : Vector Octet 65 :=
  ⟨(4::toBe 32 x++toBe 32 y).toArray,by simp⟩

/-- The points of the scalars one and two. -/
def heldKey : Vector Octet 65 := uncompressed
  0x6b17d1f2e12c4247f8bce6e563a440f277037d812deb33a0f4a13945d898c296
  0x4fe342e2fe1a7f9b8ee7eb4a7c0f9e162bce33576b315ececbb6406837bf51f5

def otherKey : Vector Octet 65 := uncompressed
  0x7cf27b188d034f7e8a52380304b51ac3c08969e277f21b35a60b48fc47669978
  0x07775510db8ed040293d9ac69f7430dbba7dade63ce982299e04b79d227873d1

/-- The curve at these two scalars. -/
def multiples (scalar : Vector Octet 32) : Option (Vector Octet 65) :=
  if ofBe scalar.toList = 1 then some heldKey
  else if ofBe scalar.toList = 2 then some otherKey
  else none

/-- A certificate for the other key, with the held key's encoding in an extension. -/
def foreign : List Octet :=
  [0x30,0x81,0xd0,0x30,0x81,0xc9,0xa0,3,2,1,2,2,1,1,0x30,0,0x30,0,0x30,0,
    0x30,0]++keyInfo otherKey++[0xa3,0x5b]++keyInfo heldKey++[0x30,0,3,1,0]

def holding (scalar : Octet) (key : Vector Octet 65) : State :=
  .minted (.replicate 16 0) ((Vector.replicate 31 0).push scalar) key ⟨foreign,by decide +kernel⟩

theorem bound_certificate_accepted : ∃ i, verify multiples (fun _ => .replicate 32 0)
    (holding 2 otherKey) = .ok i :=
  bound_accepted _ _ _ (by decide +kernel) (by decide +kernel)

/-- A certificate for another key is accepted for the key it only mentions. -/
theorem foreign_certificate_accepted :
    (∃ identity, verify multiples (fun _ => .replicate 32 0) (holding 1 heldKey) =
      .ok identity) ∧
    subjectPublicKeyInfo (holding 1 heldKey).deviceCertificate.bytes = .ok (keyInfo otherKey) ∧
    keyInfo otherKey ≠ keyInfo heldKey := by
  refine ⟨(verify_ok_iff _ _ _).mpr ⟨?_,?_⟩,?_,?_⟩
  · decide +kernel
  · decide +kernel
  · decide +kernel
  · decide +kernel

end Verify

end LibreFirewall.IdentityChecks

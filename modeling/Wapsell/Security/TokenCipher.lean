import Mathlib.Data.Set.Basic
import Wapsell.Py.Base64

/-!
# Stored credentials

`sdk/wapsell/security/crypto.py`: AES-256-GCM behind texts. The primitive of
the `cryptography` package is a parameter, assumed correct and unforgeable
where that is needed; the layout of a token and the errors are the code's own.

A token is the nonce and the ciphertext, in base64 without its padding.
So the code has three things to get right: the cut behind the nonce, the
padding, and that everything that can go wrong is a `CryptoError`.

The two assumptions on the primitive are about the calls that were made
under one key. Unforgeability is the ideal one: it is not a statement
about computing time, and what an attacker may do is not modelled.
-/

namespace Wapsell.Security

open Py

/-! ## The primitive -/

/-- `AESGCM` of the `cryptography` package, by key, nonce, data and associated data. -/
structure AESGCM where
  /-- What it raises is its text. -/
  encrypt : List UInt8 → List UInt8 → List UInt8 → List UInt8 → Except String (List UInt8)
  /-- Nothing where it raises `InvalidTag`. -/
  decrypt : List UInt8 → List UInt8 → List UInt8 → List UInt8 → Option (List UInt8)

def NONCE_BYTES : Nat := 12

def KEY_BYTES : Nat := 32

/-- The bytes of the tag at the end of a ciphertext. -/
def TAG_BYTES : Nat := 16

/-- What `secrets.token_bytes(_NONCE_BYTES)` draws.

Its length is part of the type, since the code draws it and no caller passes one. -/
structure Nonce where
  bytes : List UInt8
  length_eq : bytes.length = NONCE_BYTES

/-- A call of `encrypt`, with the nonce it draws.

Two calls under one nonce are possible here. That they are not made is among the assumptions of
whoever needs it. -/
structure Encryption where
  nonce : Nonce
  plaintext : String
  associatedData : Option (List UInt8)

/-- The primitive authenticates no data as it does empty data. -/
def authenticated (associatedData : Option (List UInt8)) : List UInt8 := associatedData.getD []

/-- Correctness: what is encrypted in these calls opens under the same key, nonce and data, and is
longer by a tag.

It is asked of the calls that were made and of no others, so an instance may do anything on the
rest. -/
def AESGCM.Correct (A : AESGCM) (key : List UInt8) (calls : Set Encryption) : Prop :=
  ∀ call ∈ calls, ∃ ct,
    A.encrypt key call.nonce.bytes (encodeUtf8 call.plaintext) (authenticated call.associatedData) =
      .ok ct ∧
    ct.length = (encodeUtf8 call.plaintext).length + TAG_BYTES ∧
    A.decrypt key call.nonce.bytes ct (authenticated call.associatedData) =
      some (encodeUtf8 call.plaintext)

/-- Unforgeability: nothing opens but to the plaintext of one of these calls, and with its data
only. -/
def AESGCM.Unforgeable (A : AESGCM) (key : List UInt8) (calls : Set Encryption) : Prop :=
  ∀ nonce ct data pt, A.decrypt key nonce ct data = some pt →
    ∃ call ∈ calls, authenticated call.associatedData = data ∧ encodeUtf8 call.plaintext = pt

/-! ## The code -/

/-- What escapes: a `CryptoError`, or the `UnicodeDecodeError` of `pt.decode("utf-8")`.

The second is told apart because the code does not catch it. -/
inductive CipherError
  | crypto (message : String)
  | unicodeDecode
  deriving DecidableEq, Repr

/-- `_pad`.

A text whose length is one more than a multiple of four gets three signs and is refused by the
decoder. -/
def pad (value : String) : String :=
  value ++ String.ofList (List.replicate (missingPads value.length) '=')

/-- `value.rstrip("=")`. -/
def rstripPads (value : String) : String :=
  String.ofList (value.toList.reverse.dropWhile fun c => c = '=').reverse

/-- `generate_key`, of the bytes drawn. -/
def generateKey (drawn : List UInt8) : String := String.ofList (urlsafeB64encode drawn)

/-- `key_from_env`.

A variable that is not set and an empty one are the same. -/
def keyFromEnv (environ : String → Option String) (var : String) :
    Except CipherError (List UInt8) :=
  let raw := (environ var).getD ""
  if raw = "" then .error (.crypto s!"missing env var: {var}")
  else match urlsafeB64decode (pad raw) with
    | .error _ => .error (.crypto s!"{var} is not valid base64")
    | .ok key =>
      if key.length ≠ KEY_BYTES then
        .error (.crypto s!"{var} must decode to {KEY_BYTES} bytes (got {key.length})")
      else .ok key

/-- `TokenCipher`, which is not built on a key of another length. -/
structure TokenCipher where
  key : List UInt8
  length_eq : key.length = KEY_BYTES

namespace TokenCipher

/-- `__init__`. -/
def init (key : List UInt8) : Except CipherError TokenCipher :=
  if h : key.length = KEY_BYTES then .ok ⟨key, h⟩
  else .error (.crypto s!"key must be {KEY_BYTES} bytes; got {key.length}")

/-- `from_env`. -/
def fromEnv (environ : String → Option String) (var : String) : Except CipherError TokenCipher :=
  (keyFromEnv environ var).bind init

/-- `encrypt`. -/
def encrypt (cipher : TokenCipher) (A : AESGCM) (call : Encryption) : Except CipherError String :=
  match A.encrypt cipher.key call.nonce.bytes (encodeUtf8 call.plaintext)
      (authenticated call.associatedData) with
  | .error exc => .error (.crypto s!"encrypt failed: {exc}")
  | .ok ct => .ok (rstripPads (String.ofList (urlsafeB64encode (call.nonce.bytes ++ ct))))

/-- `pt.decode("utf-8")`. -/
def decoded (pt : List UInt8) : Except CipherError String :=
  match decodeUtf8 pt with
  | none => .error .unicodeDecode
  | some plaintext => .ok plaintext

/-- `decrypt`. -/
def decrypt (cipher : TokenCipher) (A : AESGCM) (token : String)
    (associatedData : Option (List UInt8)) : Except CipherError String :=
  match urlsafeB64decode (pad token) with
  | .error _ => .error (.crypto "token is not valid base64")
  | .ok blob =>
    if blob.length ≤ NONCE_BYTES then
      .error (.crypto "token shorter than the nonce — malformed")
    else match A.decrypt cipher.key (blob.take NONCE_BYTES) (blob.drop NONCE_BYTES)
        (authenticated associatedData) with
      | none => .error (.crypto "decrypt failed: authentication tag mismatch")
      | some pt => decoded pt

end TokenCipher

/-! ## Padding -/

/-- Padding puts back what was taken off. -/
theorem pad_rstripPads (bytes : List UInt8) :
    pad (rstripPads (String.ofList (urlsafeB64encode bytes))) =
      String.ofList (urlsafeB64encode bytes) := by
  rw [rstripPads, String.toList_ofList, dropWhile_urlsafeB64encode, pad, String.length_ofList,
    ← String.ofList_append, ← urlsafeB64encode_eq]

/-- A text that is already padded stays. -/
theorem pad_generateKey (drawn : List UInt8) : pad (generateKey drawn) = generateKey drawn := by
  have hlength : (urlsafeB64encode drawn).length % 4 = 0 := by
    rw [urlsafeB64encode_eq, List.length_append, List.length_replicate, missingPads]
    omega
  have hmissing : missingPads (urlsafeB64encode drawn).length = 0 := by
    rw [missingPads]
    omega
  rw [pad, generateKey, String.length_ofList, hmissing, List.replicate_zero, String.ofList_nil,
    String.append_empty]

/-- What `generate_key` returns is read from the environment, with its padding or without. -/
theorem fromEnv_generateKey {environ : String → Option String} {var : String}
    {drawn : List UInt8} (hdrawn : drawn.length = KEY_BYTES)
    (henviron : environ var = some (generateKey drawn) ∨
      environ var = some (rstripPads (generateKey drawn))) :
    TokenCipher.fromEnv environ var = .ok ⟨drawn, hdrawn⟩ := by
  have hpad : pad ((environ var).getD "") = generateKey drawn := by
    rcases henviron with h | h
    · rw [h, Option.getD_some, pad_generateKey]
    · rw [h, Option.getD_some, generateKey, pad_rstripPads]
  have hdecode : urlsafeB64decode (generateKey drawn) = .ok drawn := urlsafeB64decode_encode drawn
  have hraw : (environ var).getD "" ≠ "" := by
    intro hempty
    -- an empty text decodes to no bytes
    rw [← hpad, hempty] at hdecode
    have hnil : urlsafeB64decode (pad "") = .ok [] := by decide
    rw [hnil] at hdecode
    cases hdecode
    exact absurd hdrawn (by decide)
  rw [TokenCipher.fromEnv, keyFromEnv, if_neg hraw, hpad, hdecode]
  simp only [hdrawn, ne_eq, not_true_eq_false, if_false, Except.bind]
  rw [TokenCipher.init, dif_pos hdrawn]

/-! ## Decryption -/

namespace TokenCipher

@[simp] theorem decoded_encodeUtf8 (plaintext : String) :
    decoded (encodeUtf8 plaintext) = .ok plaintext := by
  rw [decoded, decodeUtf8_encodeUtf8]

/-- A token is read as the nonce and the ciphertext it was made of. -/
theorem decrypt_of_open {cipher : TokenCipher} {A : AESGCM} {nonce : Nonce} {ct pt : List UInt8}
    {associatedData : Option (List UInt8)} (hct : ct ≠ [])
    (hopen : A.decrypt cipher.key nonce.bytes ct (authenticated associatedData) = some pt) :
    cipher.decrypt A (rstripPads (String.ofList (urlsafeB64encode (nonce.bytes ++ ct))))
      associatedData = decoded pt := by
  have hlong : ¬ (nonce.bytes ++ ct).length ≤ NONCE_BYTES := by
    have hpos := List.length_pos_iff.mpr hct
    rw [List.length_append, nonce.length_eq]
    omega
  have htake : (nonce.bytes ++ ct).take NONCE_BYTES = nonce.bytes := by
    rw [← nonce.length_eq, List.take_left]
  have hdrop : (nonce.bytes ++ ct).drop NONCE_BYTES = ct := by
    rw [← nonce.length_eq, List.drop_left]
  rw [decrypt, pad_rstripPads, urlsafeB64decode_encode]
  simp only [if_neg hlong, htake, hdrop, hopen]

/-- A call of `encrypt` returns a token that opens to its plaintext. -/
theorem decrypt_encrypt {cipher : TokenCipher} {A : AESGCM} {calls : Set Encryption}
    (hA : A.Correct cipher.key calls) {call : Encryption} (hcall : call ∈ calls) :
    ∃ token, cipher.encrypt A call = .ok token ∧
      cipher.decrypt A token call.associatedData = .ok call.plaintext := by
  obtain ⟨ct, hencrypt, hlength, hopen⟩ := hA call hcall
  have hct : ct ≠ [] := by
    rintro rfl
    rw [List.length_nil, TAG_BYTES] at hlength
    omega
  refine ⟨rstripPads (String.ofList (urlsafeB64encode (call.nonce.bytes ++ ct))), ?_, ?_⟩
  · rw [encrypt, hencrypt]
  · rw [decrypt_of_open hct hopen, decoded_encodeUtf8]

/-- A decryption that does not end in `CryptoError` opened a ciphertext with the primitive. -/
theorem decrypt_cases (cipher : TokenCipher) (A : AESGCM) (token : String)
    (associatedData : Option (List UInt8)) :
    (∃ message, cipher.decrypt A token associatedData = .error (.crypto message)) ∨
    ∃ nonce ct pt, A.decrypt cipher.key nonce ct (authenticated associatedData) = some pt ∧
      cipher.decrypt A token associatedData = decoded pt := by
  unfold decrypt
  cases hdecode : urlsafeB64decode (pad token) with
  | error e => exact .inl ⟨_, rfl⟩
  | ok blob =>
    by_cases hshort : blob.length ≤ NONCE_BYTES
    · exact .inl ⟨_, if_pos hshort⟩
    · simp only [if_neg hshort]
      cases hopen : A.decrypt cipher.key (blob.take NONCE_BYTES) (blob.drop NONCE_BYTES)
          (authenticated associatedData) with
      | none => exact .inl ⟨_, rfl⟩
      | some pt => exact .inr ⟨_, _, pt, hopen, rfl⟩

/-- Under a primitive that cannot be forged, a token opens to what was encrypted under the key and
the same data, or is refused with a `CryptoError`.

The bytes of the token are cut behind the nonce, and whatever stands there goes to the primitive. -/
theorem decrypt_unforged {cipher : TokenCipher} {A : AESGCM} {calls : Set Encryption}
    (hA : A.Unforgeable cipher.key calls) (token : String) (associatedData : Option (List UInt8)) :
    (∃ call ∈ calls, authenticated call.associatedData = authenticated associatedData ∧
      cipher.decrypt A token associatedData = .ok call.plaintext) ∨
    ∃ message, cipher.decrypt A token associatedData = .error (.crypto message) := by
  rcases decrypt_cases cipher A token associatedData with herror | ⟨nonce, ct, pt, hopen, heq⟩
  · exact .inr herror
  · obtain ⟨call, hcall, hdata, rfl⟩ := hA nonce ct _ pt hopen
    exact .inl ⟨call, hcall, hdata, heq.trans (decoded_encodeUtf8 call.plaintext)⟩

/-- **Round trip and totality.** Of a correct primitive every call of `encrypt` gives a token that
`decrypt` reads back. Of an unforgeable one `decrypt` answers what was encrypted under that data, or
raises a `CryptoError` and nothing else, whatever text it is given as a token. -/
theorem decrypt_exact (cipher : TokenCipher) (A : AESGCM) (calls : Set Encryption) :
    (A.Correct cipher.key calls → ∀ call ∈ calls, ∃ token, cipher.encrypt A call = .ok token ∧
      cipher.decrypt A token call.associatedData = .ok call.plaintext) ∧
    (A.Unforgeable cipher.key calls → ∀ token associatedData,
      (∃ call ∈ calls, authenticated call.associatedData = authenticated associatedData ∧
        cipher.decrypt A token associatedData = .ok call.plaintext) ∨
      ∃ message, cipher.decrypt A token associatedData = .error (.crypto message)) :=
  ⟨fun hA _ hcall => decrypt_encrypt hA hcall,
    fun hA token associatedData => decrypt_unforged hA token associatedData⟩

/-! A run of the primitive: the token of a tenant. -/

def zeroCipher : TokenCipher := ⟨List.replicate 32 0, rfl⟩

def metaToken : Encryption :=
  ⟨⟨List.replicate 12 0, rfl⟩, "EAAg", some [116, 101, 110, 97, 110, 116, 45, 65]⟩

/-- What AES-256-GCM returns for it. -/
def metaCiphertext : List UInt8 :=
  [139, 230, 1, 90, 198, 206, 166, 48, 109, 22, 233, 106, 115, 8, 28, 251, 55, 222, 233, 73]

/-- The primitive in this run. -/
def metaRun : AESGCM where
  encrypt key nonce data associatedData :=
    if key = zeroCipher.key ∧ nonce = metaToken.nonce.bytes ∧ data = [69, 65, 65, 103] ∧
      associatedData = authenticated metaToken.associatedData then .ok metaCiphertext
    else .error "not in this run"
  decrypt key nonce ct associatedData :=
    if key = zeroCipher.key ∧ nonce = metaToken.nonce.bytes ∧ ct = metaCiphertext ∧
      associatedData = authenticated metaToken.associatedData then some [69, 65, 65, 103]
    else none

theorem encodeUtf8_metaToken : encodeUtf8 metaToken.plaintext = [69, 65, 65, 103] := by
  decide

theorem metaRun_correct : metaRun.Correct zeroCipher.key {metaToken} := by
  rintro call rfl
  rw [encodeUtf8_metaToken]
  exact ⟨metaCiphertext, rfl, rfl, rfl⟩

theorem metaRun_unforgeable : metaRun.Unforgeable zeroCipher.key {metaToken} := by
  intro nonce ct data pt hopen
  simp only [metaRun, Option.ite_none_right_eq_some, Option.some.injEq] at hopen
  obtain ⟨⟨-, -, -, hdata⟩, hpt⟩ := hopen
  exact ⟨metaToken, rfl, hdata.symm, encodeUtf8_metaToken.trans hpt⟩

theorem decrypt_exact_metaToken :
    (∃ token, zeroCipher.encrypt metaRun metaToken = .ok token ∧
      zeroCipher.decrypt metaRun token metaToken.associatedData = .ok "EAAg") ∧
    ((∃ call ∈ ({metaToken} : Set Encryption), authenticated call.associatedData = [] ∧
        zeroCipher.decrypt metaRun "AAAAAAAAAAAAAAAAi-YBWsbOpjBtFulqcwgc-zfe6Uk" none =
          .ok call.plaintext) ∨
      ∃ message, zeroCipher.decrypt metaRun "AAAAAAAAAAAAAAAAi-YBWsbOpjBtFulqcwgc-zfe6Uk" none =
        .error (.crypto message)) :=
  ⟨(decrypt_exact zeroCipher metaRun {metaToken}).1 metaRun_correct metaToken rfl,
    (decrypt_exact zeroCipher metaRun {metaToken}).2 metaRun_unforgeable _ none⟩

end TokenCipher

end Wapsell.Security

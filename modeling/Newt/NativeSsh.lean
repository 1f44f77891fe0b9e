import Mathlib.Data.List.Basic
import Newt.Lib.AddressText
import Newt.Lib.SshCert
import Newt.Lib.Text

/-!
# Logins to the native SSH server and from the browser

A certificate logs a user in on two ways.  The native SSH server decides in the callback of
`makePublicKeyCallback` and in the handshake of the library.  The browser gateway calls
`AuthenticateWithCertificate`, which checks the certificate itself.

`certificateStep_agrees_iff` says for which certificates the two agree.  The handshake
enforces the source address of a certificate and the browser has no address to compare
with it; and the server takes a certificate that stands in `authorized_keys` as it is.
-/

namespace Newt.NativeSsh

open Ssh Netip

/-- What the host is asked. -/
structure Host where
  systemUserExists : List Char → Bool
  /-- The lines of `~/.ssh/authorized_keys`, if there are the user and the file. -/
  authorizedKeys : List Char → Option (List (List Char))
  verifySystemPassword : (username password : List Char) → Bool

/-- `CredentialStore`: the CA key, and the allowed principals of a user. -/
structure CredentialStore where
  caKey : Option PublicKey
  principals : List Char → List (List Char)

def CredentialStore.new : CredentialStore :=
  { caKey := none, principals := fun _ => [] }

section Store

variable {F : Type} (lib : Library F)

/-- `SetCAKey`. -/
def CredentialStore.setCAKey (s : CredentialStore) (authorizedKeyData : List Char) :
    Except String CredentialStore :=
  match lib.parseAuthorizedKey authorizedKeyData with
  | .error err => .error ("parse CA key: " ++ err)
  | .ok key => .ok { s with caKey := some key }

/-- `AddPrincipals`. -/
def CredentialStore.addPrincipals (s : CredentialStore) (username niceId : List Char) :
    CredentialStore :=
  let username := Text.trimSpace username
  let niceId := Text.trimSpace niceId
  if username = [] then s
  else
    let set := (s.principals username).insert username
    let set := if niceId ≠ [] then set.insert niceId else set
    { s with principals := Function.update s.principals username set }

inductive Op
  | setCAKey (authorizedKeyData : List Char)
  | addPrincipals (username niceId : List Char)

/-- A call changes the store; one that fails does not. -/
def CredentialStore.apply (s : CredentialStore) : Op → CredentialStore
  | .setCAKey data =>
    match s.setCAKey lib data with
    | .ok s' => s'
    | .error _ => s
  | .addPrincipals username niceId => s.addPrincipals username niceId

/-- The store after some calls. -/
def CredentialStore.after (history : List Op) : CredentialStore :=
  history.foldl (CredentialStore.apply lib) CredentialStore.new

end Store

section Logins

variable {F : Type} [DecidableEq F] (lib : Library F) (host : Host)

/-- `CheckAuthorizedKeys`. -/
def checkAuthorizedKeys (username : List Char) (key : PublicKey) : Bool :=
  match host.authorizedKeys username with
  | none => false
  | some lines =>
    lines.any (fun line =>
      let line := Text.trimSpace line
      if line = [] ∨ line.head? = some '#' then false
      else
        match lib.parseAuthorizedKey line with
        | .error _ => false
        | .ok parsed => lib.fingerprint parsed = lib.fingerprint key)

/-- `IsUserAuthority` of both checkers. -/
def isUserAuthority (caKey : PublicKey) (auth : Key) : Bool :=
  lib.fingerprint (.plain auth) = lib.fingerprint caKey

/-- `makePublicKeyCallback`. -/
def publicKeyCallback (store : Option CredentialStore) (user : List Char) (key : PublicKey) :
    Option Permissions :=
  if checkAuthorizedKeys lib host user key then some {}
  else
    match store with
    | none => none
    | some s =>
      match s.caKey with
      | none => none
      | some caKey =>
        (s.principals user).findSome? (fun principal =>
          lib.authenticate (isUserAuthority lib caKey) principal key)

/-- The native SSH server lets a client in that offers this key and can sign with
`signer`. -/
def login (store : Option CredentialStore) (addr : Addr) (user : List Char) (key : PublicKey)
    (signer : Key) : Bool :=
  lib.handshake (publicKeyCallback lib host store user) addr key signer

/-- The second step of `AuthenticateWithCertificate`. -/
def certificateStep (s : CredentialStore) (username : List Char) (signer : Key) :
    PublicKey → Bool
  | .plain _ => false
  | .cert c =>
    if lib.fingerprint (.plain c.key) ≠ lib.fingerprint (.plain signer) then false
    else
      match s.caKey with
      | none => false
      | some caKey =>
        (s.principals username).any (fun principal =>
          (lib.authenticate (isUserAuthority lib caKey) principal (.cert c)).isSome)

/-- A name as `%q` prints it, if it has no character that needs an escape. -/
def quoted (name : List Char) : String :=
  "\"" ++ String.ofList name ++ "\""

/-- `AuthenticateWithCertificate`. -/
def authenticateWithCertificate (store : Option CredentialStore)
    (username password privateKeyPEM certificate : List Char) : Except String Unit :=
  if ¬ host.systemUserExists username then
    .error ("user " ++ quoted username ++ " does not exist")
  else
    let parsed := if privateKeyPEM ≠ [] then lib.parsePrivateKey privateKeyPEM else none
    let listed := parsed.any (fun key => checkAuthorizedKeys lib host username (.plain key))
    let certified :=
      match store, parsed with
      | some s, some signer =>
        certificate ≠ [] &&
          (lib.parseAuthorizedKey certificate).toOption.any
            (certificateStep lib s username signer)
      | _, _ => false
    if listed || certified ||
        (password ≠ [] && host.verifySystemPassword username password) then .ok ()
    else .error ("authentication failed for user " ++ quoted username)

/-! ## The two ways -/

/-- The CA key and the principals of the user accept the certificate. -/
def Certified (s : CredentialStore) (user : List Char) (c : Certificate) : Prop :=
  ∃ caKey, s.caKey = some caKey ∧ ∃ principal ∈ s.principals user,
    (lib.authenticate (isUserAuthority lib caKey) principal (.cert c)).isSome = true

/-- The certificate itself stands in `authorized_keys`. -/
def Listed (user : List Char) (c : Certificate) : Prop :=
  checkAuthorizedKeys lib host user (.cert c) = true

/-- The client is at an address the certificate allows. -/
def AtSource (c : Certificate) (addr : Addr) : Prop :=
  lib.sourceAllowed c.toPermissions addr = true

variable {lib host} {s : CredentialStore} {user : List Char} {signer : Key} {c : Certificate}
variable {addr : Addr}

theorem certificateStep_iff : certificateStep lib s user signer (.cert c) = true ↔
    c.key = signer ∧ Certified lib s user c := by
  have hkey : lib.fingerprint (.plain c.key) = lib.fingerprint (.plain signer) ↔
      c.key = signer := by
    rw [lib.fingerprint_injective.eq_iff, PublicKey.plain.injEq]
  by_cases h : c.key = signer
  · rw [certificateStep, if_neg (not_not_intro (hkey.mpr h))]
    unfold Certified
    cases s.caKey with
    | none => simp
    | some caKey => simp [h]
  · rw [certificateStep, if_pos (fun heq => h (hkey.mp heq))]
    simp [h]

/-- What the loop over the principals returns for a certificate. -/
theorem findSome?_authenticate {caKey : PublicKey} {principals : List (List Char)}
    {perms : Permissions} :
    principals.findSome? (fun principal =>
        lib.authenticate (isUserAuthority lib caKey) principal (.cert c)) = some perms ↔
      (∃ principal ∈ principals,
        (lib.authenticate (isUserAuthority lib caKey) principal (.cert c)).isSome = true) ∧
        perms = c.toPermissions := by
  constructor
  · intro h
    obtain ⟨principal, hmem, hauth⟩ := List.exists_of_findSome?_eq_some h
    exact ⟨⟨principal, hmem, Option.isSome_of_eq_some hauth⟩, lib.authenticate_eq_some hauth⟩
  · rintro ⟨hex, rfl⟩
    obtain ⟨perms, hperms⟩ := Option.isSome_iff_exists.mp (List.findSome?_isSome_iff.mpr hex)
    obtain ⟨principal, -, hauth⟩ := List.exists_of_findSome?_eq_some hperms
    rw [hperms, lib.authenticate_eq_some hauth]

/-- The callback for a certificate: that in `authorized_keys` first. -/
theorem publicKeyCallback_cert {perms : Permissions} :
    publicKeyCallback lib host (some s) user (.cert c) = some perms ↔
      Listed lib host user c ∧ perms = {} ∨
        ¬ Listed lib host user c ∧ Certified lib s user c ∧ perms = c.toPermissions := by
  unfold publicKeyCallback Listed Certified
  by_cases hlisted : checkAuthorizedKeys lib host user (.cert c) = true
  · rw [if_pos hlisted]
    constructor
    · exact fun h => .inl ⟨hlisted, (Option.some.inj h).symm⟩
    · rintro (⟨-, rfl⟩ | ⟨hnot, -⟩)
      · rfl
      · exact absurd hlisted hnot
  · rw [if_neg hlisted]
    simp only [hlisted, false_and, false_or, not_false_eq_true, true_and, Bool.false_eq_true]
    cases s.caKey with
    | none => simp
    | some caKey =>
      rw [findSome?_authenticate]
      simp

theorem login_iff : login lib host (some s) addr user (.cert c) signer = true ↔
    c.key = signer ∧ (Listed lib host user c ∨ Certified lib s user c ∧ AtSource lib c addr) := by
  have hhandshake : login lib host (some s) addr user (.cert c) signer = true ↔
      ∃ perms, publicKeyCallback lib host (some s) user (.cert c) = some perms ∧
        lib.sourceAllowed perms addr = true ∧ c.key = signer := by
    unfold login Library.handshake
    cases publicKeyCallback lib host (some s) user (.cert c) with
    | none => simp
    | some perms =>
      constructor
      · intro h
        obtain ⟨hsource, hkey⟩ := Bool.and_eq_true_iff.mp h
        exact ⟨perms, rfl, hsource, of_decide_eq_true hkey⟩
      · rintro ⟨perms', heq, hsource, hkey⟩
        cases heq
        exact Bool.and_eq_true_iff.mpr ⟨hsource, decide_eq_true hkey⟩
  rw [hhandshake]
  simp only [publicKeyCallback_cert]
  constructor
  · rintro ⟨perms, ⟨hlisted, -⟩ | ⟨-, hcert, rfl⟩, hsource, hkey⟩
    · exact ⟨hkey, .inl hlisted⟩
    · exact ⟨hkey, .inr ⟨hcert, hsource⟩⟩
  · rintro ⟨hkey, hallowed⟩
    by_cases hlisted : Listed lib host user c
    · exact ⟨{}, .inl ⟨hlisted, rfl⟩, rfl, hkey⟩
    · obtain ⟨hcert, hsource⟩ := hallowed.resolve_left hlisted
      exact ⟨c.toPermissions, .inr ⟨hlisted, hcert, rfl⟩, hsource, hkey⟩

/-- What a call of `AuthenticateWithCertificate` for a user of the host accepts. -/
theorem authenticateWithCertificate_ok_iff {store : CredentialStore}
    {username password privateKeyPEM certificate : List Char}
    (huser : host.systemUserExists username = true) :
    authenticateWithCertificate lib host (some store) username password privateKeyPEM
        certificate = .ok () ↔
      (∃ key, privateKeyPEM ≠ [] ∧ lib.parsePrivateKey privateKeyPEM = some key ∧
        (checkAuthorizedKeys lib host username (.plain key) = true ∨
          ∃ pub, certificate ≠ [] ∧ lib.parseAuthorizedKey certificate = .ok pub ∧
            certificateStep lib store username key pub = true)) ∨
      password ≠ [] ∧ host.verifySystemPassword username password = true := by
  have hok : ∀ (b : Bool) (err : String),
      (if b then Except.ok () else Except.error err) = Except.ok () ↔ b = true := by
    intro b err
    cases b <;> simp
  unfold authenticateWithCertificate
  rw [if_neg (not_not_intro huser)]
  rw [hok]
  by_cases hpem : privateKeyPEM = []
  · simp [hpem]
  · cases hparse : lib.parsePrivateKey privateKeyPEM with
    | none => simp [hpem]
    | some key =>
      cases hcert : lib.parseAuthorizedKey certificate with
      | error err => simp [hpem, Except.toOption]
      | ok pub => simp [hpem, Except.toOption, or_assoc]

/-- **A certificate in the browser and at the server**: whatever the store has been told,
the certificate step of the browser agrees with the server on a client exactly if the
client does not have the key of the certificate; or the store accepts the certificate, and
the client is at a source it allows or the certificate stands in `authorized_keys`; or
neither is the case. -/
theorem certificateStep_agrees_iff (lib : Library F) (host : Host) (history : List Op)
    (user : List Char) (signer : Key) (c : Certificate) (addr : Addr) :
    (certificateStep lib (CredentialStore.after lib history) user signer (.cert c) = true ↔
        login lib host (some (CredentialStore.after lib history)) addr user (.cert c) signer =
          true) ↔
      (c.key = signer →
        (Certified lib (CredentialStore.after lib history) user c →
          AtSource lib c addr ∨ Listed lib host user c) ∧
        (Listed lib host user c → Certified lib (CredentialStore.after lib history) user c)) := by
  rw [certificateStep_iff, login_iff]
  tauto

end Logins

/-! ## Certificates with a source address -/

def caKey : Key := ⟨"ca".toList⟩

def aliceKey : Key := ⟨"alice".toList⟩

/-- A certificate of the CA for alice, with these options and for one hour. -/
def aliceCert (options : List (List Char × List Char)) : Certificate where
  criticalOptions := options
  key := aliceKey
  isUserCert := true
  validPrincipals := ["alice".toList]
  validAfter := 1000
  validBefore := 4600
  signatureKey := caKey

/-- A library at some time that knows two texts of keys and compares addresses only. -/
def libraryAt (now : Nat) : Library PublicKey where
  parseAuthorizedKey text :=
    if text = "ssh-ed25519 ca".toList then .ok (.plain caKey)
    else if text = "cert alice".toList then .ok (.cert (aliceCert []))
    else .error "ssh: no key found"
  parsePrivateKey _ := some aliceKey
  fingerprint := id
  fingerprint_injective := Function.injective_id
  verifies _ := true
  checkSourceAddress addr sources := formatIP addr = sources
  now := now

/-- A host with some lines in the `authorized_keys` of every user. -/
def hostWith (lines : List (List Char)) : Host where
  systemUserExists _ := true
  authorizedKeys _ := some lines
  verifySystemPassword _ _ := false

def aliceAdded : List Op :=
  [.setCAKey "ssh-ed25519 ca".toList, .addPrincipals "alice".toList []]

def office : Addr := .v4 0x0A000001

def elsewhere : Addr := .v4 0x0A000002

def fromOffice : Certificate :=
  aliceCert [(sourceAddress, "10.0.0.1".toList)]

theorem certificateStep_agrees_atOffice :
    certificateStep (libraryAt 2000) (CredentialStore.after (libraryAt 2000) aliceAdded)
        "alice".toList aliceKey (.cert fromOffice) = true ∧
      login (libraryAt 2000) (hostWith []) (some (CredentialStore.after (libraryAt 2000)
        aliceAdded)) office "alice".toList (.cert fromOffice) aliceKey = true := by
  have hstep : certificateStep (libraryAt 2000)
      (CredentialStore.after (libraryAt 2000) aliceAdded) "alice".toList aliceKey
      (.cert fromOffice) = true := by
    decide +kernel
  refine ⟨hstep, ?_⟩
  refine ((certificateStep_agrees_iff (libraryAt 2000) (hostWith []) aliceAdded "alice".toList
    aliceKey fromOffice office).mpr ?_).mp hstep
  intro _
  refine ⟨fun _ => .inl ?_, fun hlisted => ?_⟩
  · unfold AtSource
    decide +kernel
  · have hnot : checkAuthorizedKeys (libraryAt 2000) (hostWith []) "alice".toList
        (.cert fromOffice) = false := by
      decide +kernel
    unfold Listed at hlisted
    rw [hnot] at hlisted
    cases hlisted

/-- A certificate for the office is taken by the browser from elsewhere, and by the server
it is not.  A certificate in `authorized_keys` that has run out is taken by the server. -/
theorem certificateStep_disagrees :
    (certificateStep (libraryAt 2000) (CredentialStore.after (libraryAt 2000) aliceAdded)
        "alice".toList aliceKey (.cert fromOffice) = true ∧
      login (libraryAt 2000) (hostWith []) (some (CredentialStore.after (libraryAt 2000)
        aliceAdded)) elsewhere "alice".toList (.cert fromOffice) aliceKey = false) ∧
    (certificateStep (libraryAt 9000) (CredentialStore.after (libraryAt 9000) aliceAdded)
        "alice".toList aliceKey (.cert (aliceCert [])) = false ∧
      login (libraryAt 9000) (hostWith ["cert alice".toList]) (some (CredentialStore.after
        (libraryAt 9000) aliceAdded)) office "alice".toList (.cert (aliceCert [])) aliceKey =
          true) := by decide +kernel

end Newt.NativeSsh

import Mathlib.Algebra.Group.Nat.Defs
import Newt.Lib.Address

/-!
# SSH certificates

What an SSH library does with certificates: the check of a certificate for a principal,
and what the handshake of a server adds to the callback that decides on a public key.

The library checks the authority, the validity period, the principals, the signature and
that there is no critical option it does not know.  The option `source-address` it knows:
the check of the certificate passes it over, and the handshake enforces it.
-/

namespace Ssh

open Netip

/-- A public key that is no certificate, in its wire form. -/
structure Key where
  blob : List Char
deriving DecidableEq, Repr

/-- `Permissions`: what a callback grants, and under which options. -/
structure Permissions where
  criticalOptions : List (List Char × List Char) := []
  extensions : List (List Char × List Char) := []
deriving DecidableEq, Repr

structure Certificate extends Permissions where
  key : Key
  isUserCert : Bool
  validPrincipals : List (List Char)
  validAfter : Nat
  validBefore : Nat
  signatureKey : Key
deriving DecidableEq, Repr

inductive PublicKey
  | plain (key : Key)
  | cert (c : Certificate)
deriving DecidableEq, Repr

/-- The key whose owner can sign. -/
def PublicKey.signing : PublicKey → Key
  | .plain key => key
  | .cert c => c.key

def sourceAddress : List Char :=
  "source-address".toList

/-- What the library is given; fingerprints are of type `F`. -/
structure Library (F : Type) where
  parseAuthorizedKey : List Char → Except String PublicKey
  /-- The public key of the signer. -/
  parsePrivateKey : List Char → Option Key
  fingerprint : PublicKey → F
  fingerprint_injective : Function.Injective fingerprint
  /-- The signature on a certificate is one of its `signatureKey`. -/
  verifies : Certificate → Bool
  /-- The address is in the list. -/
  checkSourceAddress : Addr → List Char → Bool
  /-- Seconds since 1970. -/
  now : Nat

namespace Library

variable {F : Type} (lib : Library F)

/-- `Certificate` is valid now.  The times are 64 bits wide and read as signed numbers;
the largest is no limit. -/
def inPeriod (c : Certificate) : Bool :=
  (c.validAfter < 2 ^ 63 ∧ c.validAfter ≤ lib.now) &&
    (c.validBefore = 2 ^ 64 - 1 ∨ c.validBefore < 2 ^ 63 ∧ lib.now < c.validBefore)

/-- `CheckCert`; a certificate without principals is for all. -/
def checkCert (principal : List Char) (c : Certificate) : Bool :=
  c.criticalOptions.all (fun o => o.1 = sourceAddress) &&
    (c.validPrincipals = [] ∨ c.validPrincipals.any (fun p => p = principal)) &&
    lib.inPeriod c && lib.verifies c

/-- `CertChecker.Authenticate` without a fallback for plain keys. -/
def authenticate (isUserAuthority : Key → Bool) (principal : List Char) :
    PublicKey → Option Permissions
  | .plain _ => none
  | .cert c =>
    if c.isUserCert && isUserAuthority c.signatureKey && lib.checkCert principal c then
      some c.toPermissions
    else none

/-- The handshake enforces the source address, if the callback returns one. -/
def sourceAllowed (perms : Permissions) (addr : Addr) : Bool :=
  match perms.criticalOptions.lookup sourceAddress with
  | none | some [] => true
  | some sources => lib.checkSourceAddress addr sources

/-- The handshake of a server with this callback, for a client that can sign with
`signer`. -/
def handshake (callback : PublicKey → Option Permissions) (addr : Addr) (key : PublicKey)
    (signer : Key) : Bool :=
  match callback key with
  | none => false
  | some perms => lib.sourceAllowed perms addr && key.signing = signer

/-- What a certificate grants is always the same. -/
theorem authenticate_eq_some {isUserAuthority : Key → Bool} {principal : List Char}
    {c : Certificate} {perms : Permissions}
    (h : lib.authenticate isUserAuthority principal (.cert c) = some perms) :
    perms = c.toPermissions := by
  simp only [authenticate] at h
  split at h
  · exact (Option.some.inj h).symm
  · cases h

end Library

end Ssh

/-
  OtpToken.Session
  ────────────────
  **PINS, RETRIES AND TEMPORARY PASSWORDS.**

  The admin and the user each have a PIN, three attempts and at most one live
  temporary password.  A right PIN gives back all attempts, a wrong one costs
  one, and with none left even the right PIN is refused.  The two roles do
  not touch each other, except that the admin PIN can give the user a new PIN.

  Temporary passwords are checked without costing an attempt.  An empty one
  never authorises anything.
-/
import OtpToken.Secret
import OtpToken.Status

namespace OtpToken

/-! ## §1. Attempts. -/

/-- How many attempts a role gets. -/
def maxRetries : Nat := 3

/-- The attempts that a role has left. -/
structure RetryCounter where
  remaining : Nat
  remaining_le : remaining ≤ maxRetries
  deriving DecidableEq

namespace RetryCounter

/-- All attempts. -/
def full : RetryCounter := ⟨maxRetries, Nat.le_refl _⟩

/-- One attempt less; none stays none. -/
def spend (r : RetryCounter) : RetryCounter :=
  ⟨r.remaining - 1, Nat.le_trans (Nat.sub_le _ _) r.remaining_le⟩

/-- Whether no attempt is left. -/
def isLocked (r : RetryCounter) : Bool := r.remaining = 0

end RetryCounter

/-! ## §2. Temporary passwords. -/

/-- What a login hands out. -/
structure TempPassword where
  secret : Secret
  deriving DecidableEq

/-- Whether what was presented is the temporary password; an empty
presentation never is. -/
def TempPassword.admits (t : TempPassword) (presented : Bytes) : Bool :=
  !presented.isEmpty && t.secret.agrees presented

/-! ## §3. One role. -/

/-- The state of one role. -/
structure Credential where
  pin : Secret
  retries : RetryCounter
  temp : Option TempPassword
  deriving DecidableEq

namespace Credential

/-- A role with a PIN, all attempts and nobody logged in. -/
def fresh (pin : Secret) : Credential := ⟨pin, .full, none⟩

/-- Whether a PIN would be taken now. -/
def accepts (c : Credential) (pin : Bytes) : Bool := !c.retries.isLocked && c.pin.agrees pin

/-- The role after a PIN was tried. -/
def tried (c : Credential) (pin : Bytes) : Credential :=
  if c.retries.isLocked then c
  else { c with retries := if c.pin.agrees pin then .full else c.retries.spend }

/-- The role after a login was tried: a failure ends the session that was
there. -/
def loggedIn (c : Credential) (pin : Bytes) (temp : Secret) : Credential :=
  { c.tried pin with temp := if c.accepts pin then some ⟨temp⟩ else none }

end Credential

/-! ## §4. Both roles. -/

/-- Who asks. -/
inductive Role where
  | unauthenticated
  | user
  | admin
  deriving DecidableEq

/-- A new user PIN has at least this many bytes. -/
def minUserPinLength : Nat := 6

/-- A new admin PIN has at least this many bytes. -/
def minAdminPinLength : Nat := 8

namespace Role

/-- The least length of a new PIN and what a shorter one is answered. -/
def pinRule? : Role → Option (Nat × Status)
  | unauthenticated => none
  | user => some (minUserPinLength, .userPinNotChanged)
  | admin => some (minAdminPinLength, .adminPinNotChanged)

/-- The name of a role. -/
def name : Role → String
  | unauthenticated => "Unauthenticated"
  | user => "User"
  | admin => "Admin"

/-- Every role. -/
def all : List Role := [unauthenticated, user, admin]

end Role

/-- The authentication state of a token. -/
structure Session where
  admin : Credential
  user : Credential
  deriving DecidableEq

namespace Session

/-- How a step of a session ends. -/
abbrev Verdict := Except Status Unit

/-- Factory PINs, all attempts, nobody logged in. -/
def fresh (adminPin userPin : Secret) : Session := ⟨.fresh adminPin, .fresh userPin⟩

/-- The state of a role; nobody has none. -/
def credential? (s : Session) : Role → Option Credential
  | .unauthenticated => none
  | .user => some s.user
  | .admin => some s.admin

/-- The session with the state of one role replaced. -/
def update (s : Session) (role : Role) (c : Credential) : Session :=
  match role with
  | .unauthenticated => s
  | .user => { s with user := c }
  | .admin => { s with admin := c }

/-! ### Checking PINs. -/

/-- A PIN is tried outside a login. -/
def verifyPin (s : Session) (role : Role) (pin : Bytes) : Verdict × Session :=
  match s.credential? role with
  | none => (.error .notAuthorized, s)
  | some c =>
      (if c.accepts pin then .ok () else .error .wrongPassword, s.update role (c.tried pin))

/-- A login: the right PIN makes `temp` the live temporary password. -/
def login (s : Session) (role : Role) (pin : Bytes) (temp : Secret) : Verdict × Session :=
  match s.credential? role with
  | none => (.error .notAuthorized, s)
  | some c =>
      (if c.accepts pin then .ok () else .error .wrongPassword,
        s.update role (c.loggedIn pin temp))

/-- The admin gives the user a new PIN and all attempts. -/
def unlockUser (s : Session) (adminPin : Bytes) (newUserPin : Secret) : Verdict × Session :=
  match s.verifyPin .admin adminPin with
  | (.error status, s) => (.error status, s)
  | (.ok (), s) =>
      -- The admin PIN was right: it has given the admin all attempts back.
      if newUserPin.length < minUserPinLength then (.error .userPinNotUnblocked, s)
      else (.ok (), { s with user := .fresh newUserPin })

/-- A role replaces its PIN. -/
def changePin (s : Session) (role : Role) (old : Bytes) (new : Secret) : Verdict × Session :=
  match role.pinRule?, s.credential? role with
  | some (minimum, failure), some c =>
      if c.accepts old then
        -- A short new PIN is refused after the right old one has counted.
        if new.length < minimum then (.error failure, s.update role (c.tried old))
        else (.ok (), s.update role { c.tried old with pin := new })
      else (.error .wrongPassword, s.update role (c.tried old))
  | _, _ => (.error .notAuthorized, s)

/-! ### Temporary passwords. -/

/-- Whether what was presented is the live temporary password of a role. -/
def admits (s : Session) (role : Role) (presented : Bytes) : Bool :=
  ((s.credential? role).bind Credential.temp).any fun temp => temp.admits presented

/-- The verdict on a presented temporary password. -/
def authorize (s : Session) (role : Role) (presented : Bytes) : Verdict :=
  if s.admits role presented then .ok () else .error .notAuthorized

/-- The live temporary password of a role is dropped. -/
def invalidate (s : Session) (role : Role) : Session :=
  match s.credential? role with
  | none => s
  | some c => s.update role { c with temp := none }

/-! ### Views. -/

/-- Whether a role has a live temporary password. -/
def isAuthenticated (s : Session) (role : Role) : Bool :=
  ((s.credential? role).bind Credential.temp).isSome

/-- The attempts that a role has left. -/
def retryCount (s : Session) (role : Role) : Nat :=
  match s.credential? role with
  | none => 0
  | some c => c.retries.remaining

end Session

end OtpToken

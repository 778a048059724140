/-
  OtpToken.Proofs.Client.Refusal
  ──────────────────────────────
  **WHAT A HOST REFUSES BY ITSELF.**

  Before anything is sent an operation checks its arguments and writes out
  its requests.  Whatever goes wrong there is a refusal of the library
  (`Call.refuses_on_host`): an index, a text or a credential that is too long, a
  secret that is no hex or too long, a counter that cannot be written, or a
  Password Safe that is not enabled.  A secret that is typed in never leads to
  an error of the code itself.

  Nothing is said here of a line, for none is touched.
-/
import OtpToken.Client.Call

namespace OtpToken

variable {α β : Type}

/-! ## §1. Failures on the host. -/

/-- If this fails, then with a refusal of the library. -/
def OnHost (x : Except Error α) : Prop := ∀ why, x = .error why → ∃ refusal, why = .library refusal

namespace OnHost

theorem ok (a : α) : OnHost (.ok a : Except Error α) := by
  intro why h
  cases h

theorem refusal (refusal : LibraryError) : OnHost (.error (.library refusal) : Except Error α) := by
  intro why h
  cases h
  exact ⟨refusal, rfl⟩

theorem library (x : Except LibraryError α) : OnHost (x.mapError .library) := by
  cases x with
  | ok a => exact ok a
  | error why => exact refusal why

theorem bind {x : Except Error α} {next : α → Except Error β} (hx : OnHost x)
    (hnext : ∀ a, OnHost (next a)) : OnHost (x >>= next) := by
  cases x with
  | ok a => exact hnext a
  | error why =>
    obtain ⟨why', rfl⟩ := hx why rfl
    exact refusal why'

theorem mapM {f : α → Except Error β} (hf : ∀ a, OnHost (f a)) (as : List α) :
    OnHost (as.mapM f) := by
  induction as with
  | nil => exact ok []
  | cons a as ih =>
    rw [List.mapM_cons]
    exact (hf a).bind fun b => ih.bind fun bs => ok (b :: bs)

/-- A secret that was typed is no hex, or it is too long. -/
theorem ofHex (text : String) (maximum : Nat) :
    OnHost ((Secret.ofHex text maximum).mapError .ofCode) := by
  unfold Secret.ofHex
  split
  · exact refusal .invalidHex
  · next bytes _ =>
    split
    · exact refusal (.secretTooLong bytes.length maximum)
    · exact ok (Secret.mk bytes)

end OnHost

/-! ## §2. Operations. -/

namespace Operation

/-- Whatever keeps the operation from being sent is a refusal on the host. -/
def RefusesOnHost (op : Operation α) : Prop := ∀ c, OnHost (op.prepare c).1

theorem onHost_request (c : Client) (command : Command) : OnHost (c.request command) :=
  .library _

theorem onHost_codeSlot (kind : CodeKind) (index : UInt8) : OnHost (codeSlot kind index) :=
  .library _

theorem onHost_safeSlot (index : UInt8) (c : Client) : OnHost (safeSlot index c) := by
  unfold safeSlot
  split
  · exact .library _
  · exact .refusal .safeDisabled

theorem onHost_checkText (label : String) (maximum : Nat) (text : String) :
    OnHost (checkText label maximum text) := by
  unfold checkText
  dsimp only
  split
  · exact .refusal _
  · exact .ok ()

section Single

variable {command : Client → Except Error Command}
  {conclude : Client → Payload → Except DecodeError α × Client}

theorem refusesOnHost_single (h : ∀ c, OnHost (command c)) :
    (single command conclude).RefusesOnHost := by
  intro c
  refine (h c).bind fun x => ?_
  exact (onHost_request c x).bind fun q => .ok (Script.mk [] q)

/-- One command that needs nothing checked. -/
theorem refusesOnHost_always {x : Command} :
    (single (fun _ => .ok x) conclude).RefusesOnHost :=
  refusesOnHost_single fun _ => .ok x

/-- One command about a slot. -/
theorem refusesOnHost_slot {slot : Client → Except Error UInt8} {make : UInt8 → Command}
    (h : ∀ c, OnHost (slot c)) :
    (single (fun c => do return make (← slot c)) conclude).RefusesOnHost :=
  refusesOnHost_single fun c => (h c).bind fun number => .ok (make number)

end Single

/-- All requests of a write are written out before the first is sent, so a
field of the last one is refused on the host like the index. -/
theorem refusesOnHost_writeSlot {kind : CodeKind} {index : UInt8} {data : SlotData}
    {counter : UInt64} {temp : Secret} :
    (writeSlot kind index data counter temp).RefusesOnHost := by
  intro c
  refine (onHost_codeSlot kind index).bind fun slot => ?_
  refine (onHost_checkText _ _ _).bind fun _ => (onHost_checkText _ _ _).bind fun _ => ?_
  refine (OnHost.ofHex _ _).bind fun secret => ?_
  refine (OnHost.mapM (onHost_request c) _).bind fun opening => ?_
  exact (onHost_request c _).bind fun final => .ok (Script.mk opening final)

theorem refusesOnHost_writeSafe {index : UInt8} {name login password : String} :
    (writeSafe index name login password).RefusesOnHost := by
  intro c
  refine (onHost_safeSlot index c).bind fun slot => ?_
  refine (onHost_request c _).bind fun primary => ?_
  exact (onHost_request c _).bind fun final => .ok (Script.mk [primary] final)

theorem refusesOnHost_safeStatus : safeStatus.RefusesOnHost := by
  apply refusesOnHost_single
  intro c
  split
  · exact .ok _
  · exact .refusal .safeDisabled

end Operation

open Operation in
/-- **Whatever keeps a call from being sent is a refusal on the host.** -/
theorem Call.refuses_on_host (call : Call) : call.operation.RefusesOnHost := by
  cases call with
  | writeHotp index data counter temp => exact refusesOnHost_writeSlot
  | writeTotp index data period temp => exact refusesOnHost_writeSlot
  | writeSafe index name login password => exact refusesOnHost_writeSafe
  | safeStatus => exact refusesOnHost_safeStatus
  -- one command about a code slot
  | hotpCode index temp => exact refusesOnHost_slot fun _ => onHost_codeSlot _ _
  | totpCode index challenge lastTime lastInterval temp =>
    exact refusesOnHost_slot fun _ => onHost_codeSlot _ _
  | readSlot kind index => exact refusesOnHost_slot fun _ => onHost_codeSlot _ _
  | slotName kind index => exact refusesOnHost_slot fun _ => onHost_codeSlot _ _
  | eraseSlot kind index temp => exact refusesOnHost_slot fun _ => onHost_codeSlot _ _
  -- one command about a Password Safe slot
  | safeName index => exact refusesOnHost_slot (onHost_safeSlot index)
  | safeLogin index => exact refusesOnHost_slot (onHost_safeSlot index)
  | safePassword index => exact refusesOnHost_slot (onHost_safeSlot index)
  | eraseSafe index => exact refusesOnHost_slot (onHost_safeSlot index)
  | _ => exact refusesOnHost_always

end OtpToken

/-
  OtpToken.Proofs.Client.Handover
  ───────────────────────────────
  **WHAT A CALL HANDS OVER.**

  A call stands for a list of commands (`Call.commands`): a write for all pieces
  of a slot and the write itself, or for both parts of a Password Safe slot, and
  every other call for one.  All of them are written out before the first is
  sent, so an argument that does not fit is told before the line is touched.

  `Call.hands_over_in_order` is the whole of it, for any line: a refusal of the
  library and nothing handed over are the same thing; otherwise the requests go
  one after the other, one report each, up to the first that fails, and nothing
  is sent twice.
-/
import OtpToken.Proofs.Client.Refusal
import OtpToken.Proofs.Client.Single
import OtpToken.Proofs.Client.Trace

namespace OtpToken

variable {σ α : Type}

/-! ## §1. The commands of a call. -/

namespace Call

/-- The commands that write a code slot; none without a slot or a secret. -/
def writeCommands (c : Client) (kind : CodeKind) (index : UInt8) (data : SlotData)
    (counter : UInt64) (temp : Secret) : Option (List Command) := do
  let number ← kind.slotNumber? index
  let secret ← (Secret.ofHex data.secret c.capabilities.secretLength).toOption
  return Operation.stagingCommands temp data.name secret
    ++ [.writeToSlot temp number counter data.flags data.tokenId]

/-- The commands of a call in order. -/
def commands (c : Client) : Call → Option (List Command)
  | writeHotp index data counter temp => writeCommands c .hotp index data counter temp
  | writeTotp index data period temp => writeCommands c .totp index data period.toUInt64 temp
  | writeSafe index name login password =>
      some [.setSafePrimary index name (.ofText password), .setSafeLogin index login]
  | call => call.command?.map fun command => [command]

theorem commands_of_single {call : Call} (h : call.single = true) (c : Client) :
    call.commands c = call.command?.map fun command => [command] := by
  cases call with
  | writeHotp index data counter temp => cases h
  | writeTotp index data period temp => cases h
  | writeSafe index name login password => cases h
  | _ => rfl

theorem writeCommands_of_asks {c : Client} {kind : CodeKind} {index : UInt8} {data : SlotData}
    {counter : UInt64} {temp : Secret} {cs : List Command} {last : Command}
    (h : Operation.AsksWrite c kind index data counter temp cs last) :
    writeCommands c kind index data counter temp = some (cs ++ [last]) := by
  obtain ⟨number, secret, hnumber, hsecret, rfl, rfl⟩ := h
  unfold writeCommands
  rw [hnumber, hsecret]
  rfl

/-- **A call asks its commands.** -/
theorem asks_commands (call : Call) (c : Client) :
    call.operation.Asks c fun cs last => call.commands c = some (cs ++ [last]) := by
  intro script hprepare
  by_cases hsingle : call.single = true
  · obtain ⟨cs, last, hscript, rfl, hcommand⟩ := asks_command hsingle c script hprepare
    refine ⟨[], last, hscript, ?_⟩
    rw [commands_of_single hsingle, hcommand]
    rfl
  · cases call with
    | writeHotp index data counter temp =>
      obtain ⟨cs, last, hscript, hasks⟩ := Operation.asks_writeSlot script hprepare
      exact ⟨cs, last, hscript, writeCommands_of_asks hasks⟩
    | writeTotp index data period temp =>
      obtain ⟨cs, last, hscript, hasks⟩ := Operation.asks_writeSlot script hprepare
      exact ⟨cs, last, hscript, writeCommands_of_asks hasks⟩
    | writeSafe index name login password =>
      obtain ⟨cs, last, hscript, rfl, rfl⟩ := Operation.asks_writeSafe script hprepare
      exact ⟨_, _, hscript, rfl⟩
    | _ => exact absurd rfl hsingle

end Call

/-- A script that asks commands has one request for each of them. -/
theorem Script.Asks.mapM_request {script : Script} {c : Client} {cs : List Command}
    {last : Command} (h : script.Asks c cs last) :
    (cs ++ [last]).mapM c.request = .ok script.requests := by
  obtain ⟨hopening, hfinal⟩ := h
  rw [List.mapM_append, hopening, List.mapM_cons, hfinal]
  rfl

/-! ## §2. Where an operation fails. -/

/-- The operation fails with `why` at this attempt: what came back was not
accepted, or its payload could not be read. -/
def Operation.FailsAt (op : Operation α) (c : Client) (x : Attempt) (why : Error) : Prop :=
  x.outcome c.options.verifyCrc = .error why
    ∨ ∃ payload e, x.outcome c.options.verifyCrc = .ok payload
        ∧ (op.conclude c payload).1 = .error e ∧ why = .ofDecode e

/-- What comes back over a line is not judged to be an error of the host or of a
code. -/
theorem Request.Judged.ne {q : Request} {verify : Bool} {back : Except LineError Report}
    {why : Error} (h : q.Judged verify back (.error why)) :
    (∀ refusal, why ≠ .library refusal) ∧ ∀ e, why ≠ .code e := by
  cases h <;> exact ⟨nofun, nofun⟩

theorem Operation.FailsAt.ne {op : Operation α} {c : Client} {x : Attempt} {why : Error}
    (h : op.FailsAt c x why) : (∀ refusal, why ≠ .library refusal) ∧ ∀ e, why ≠ .code e := by
  rcases h with houtcome | ⟨payload, e, -, -, rfl⟩
  · exact (Request.Judged.of_judge houtcome).ne
  · exact ⟨nofun, nofun⟩

/-! ## §3. Every call on every line. -/

/-- **The two ways of an operation with a line**: it is refused on the host and
the line is not touched, or it makes attempts at its requests. -/
theorem Client.Ended.handedOver {c : Client} {op : Operation α} {transfers : List Transfer}
    {result : Except Error α} {after : Client} (h : c.Ended op transfers (result, after))
    (hop : op.RefusesOnHost) :
    (transfers = [] ∧ ∃ why, result = .error (.library why))
      ∨ ∃ script done last, (op.prepare c).1 = .ok script
          ∧ transfers = (done ++ [last]).map Attempt.transfer
          ∧ script.EndsAt c.options.verifyCrc done last
          ∧ (∀ a, result = .ok a → last.Accepted c.options.verifyCrc)
          ∧ ∀ why, result = .error why → op.FailsAt c last why := by
  cases h with
  | refused hprepare =>
    obtain ⟨refusal, rfl⟩ := hop c _ hprepare
    exact .inl ⟨rfl, refusal, rfl⟩
  | failed hprepare hends hlast =>
    refine .inr ⟨_, _, _, hprepare, rfl, hends, nofun, ?_⟩
    intro why h
    cases h
    exact .inl hlast
  | unread hprepare hends hlast hconclude =>
    refine .inr ⟨_, _, _, hprepare, rfl, hends, nofun, ?_⟩
    intro why h
    cases h
    exact .inr ⟨_, _, hlast, congrArg Prod.fst hconclude, rfl⟩
  | done hprepare hends hlast hconclude =>
    exact .inr ⟨_, _, _, hprepare, rfl, hends, fun _ _ => ⟨_, hlast⟩, nofun⟩

/-- **What a call hands over to a line**, whatever is at the other end, whatever
the options of the host, and whatever the arguments.

* The call is refused by the library exactly if no report is handed over, and
  it never fails with an error of the code.
* Otherwise the reports are those of requests for the commands of the call: in
  their order, one for each, from the first on.  All but the last were accepted;
  all requests were made if the call is done, and if it fails then by what came
  back for the last one. -/
theorem Call.hands_over_in_order (call : Call) (line : Line σ) (c : Client) (s : σ) :
    let result := (call.perform line.recorded c (s, [])).1
    let sent := (call.perform line.recorded c (s, [])).2.2.2
    ((∃ why, result = .error (.library why)) ↔ sent = [])
      ∧ (∀ why, result ≠ .error (.code why))
      ∧ (sent ≠ [] → ∃ commands requests done last,
          call.commands c = some commands
            ∧ commands.mapM c.request = .ok requests
            ∧ (call.perform line.traced c (s, [])).2.2.2
                = (done ++ [last]).map Attempt.transfer
            ∧ sent = (done ++ [last]).map (fun x => x.request.toReport)
            ∧ (done ++ [last]).map Attempt.request <+: requests
            ∧ (∀ x ∈ done, x.Accepted c.options.verifyCrc)
            ∧ (∀ v, result = .ok v → (done ++ [last]).map Attempt.request = requests)
            ∧ ∀ why, result = .error why → call.operation.FailsAt c last why) := by
  intro result sent
  have hended := Client.ended call.tidy c line s
  have hrecorded := line.traced_shows_recorded.perform c call.operation (s, [])
  have hresult : result = (call.perform line.traced c (s, [])).1 := congrArg Prod.fst hrecorded
  have hsent : sent = (call.perform line.traced c (s, [])).2.2.2.map Transfer.report :=
    congrArg (fun r => r.2.2.2) hrecorded
  rw [hresult, hsent]
  rcases hended.handedOver call.refuses_on_host with
    ⟨hnone, why, hwhy⟩ | ⟨script, done, last, hprepare, htransfers, hends, hok, herror⟩
  · -- refused on the host
    have hnone : (call.perform line.traced c (s, [])).2.2.2 = [] := hnone
    have hwhy : (call.perform line.traced c (s, [])).1 = .error (.library why) := hwhy
    rw [hnone, hwhy]
    exact ⟨⟨fun _ => rfl, fun _ => ⟨why, rfl⟩⟩, nofun, fun h => absurd rfl h⟩
  · have htransfers : (call.perform line.traced c (s, [])).2.2.2
        = (done ++ [last]).map Attempt.transfer := htransfers
    obtain ⟨cs, x, hscript, hcommands⟩ := call.asks_commands c script hprepare
    rw [htransfers]
    refine ⟨⟨?_, ?_⟩, ?_, ?_⟩
    · rintro ⟨why, hwhy⟩
      exact absurd rfl ((herror _ hwhy).ne.1 why)
    · intro hnone
      simp at hnone
    · intro why hwhy
      exact absurd rfl ((herror _ hwhy).ne.2 why)
    · intro _
      refine ⟨cs ++ [x], script.requests, done, last, hcommands, hscript.mapM_request, rfl, ?_,
        hends.inOrder, hends.accepted, fun v hv => hends.whole (hok v hv), herror⟩
      rw [List.map_map]
      rfl

end OtpToken

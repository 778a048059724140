/-
  OtpToken.Proofs.Client.Connect
  ──────────────────────────────
  **CONNECTING TO A TOKEN THAT LEAVES THE FACTORY.**

  A host that was not told what the token is capable of asks for its status
  and goes by the firmware version in it.  Connecting to a fresh token always
  succeeds and changes nothing of it (`connect_eq`).
-/
import OtpToken.Proofs.Client.History
import OtpToken.Proofs.Client.Tidy
import OtpToken.Proofs.Client.Wire

namespace OtpToken

/-- **A plugged-in token always tells its status**, whatever the host takes it
to be capable of. -/
theorem Client.attempt_getStatus {t : Token} (hplug : t.pluggedIn = true) (c : Client) :
    c.attempt Token.line .getStatus t
      = (.ok ⟨t.config.firmware, t.statusRecord.serialNumber, t.store.config⟩,
          { c with known := c.known.withConfig t.store.config }, t) := by
  have hfits : ∀ f ∈ Command.getStatus.fields t.encoding, f.Fits := by
    intro f hf
    cases hf
  obtain ⟨q, hq⟩ := (Command.toRequest_isOk_iff .getStatus _).mpr hfits
  obtain ⟨payload, hpayload, hdecode⟩ := StatusRecord.exists_encode t.statusRecord
  -- one request, whatever the host takes counters to look like
  have hrequest : c.request .getStatus = .ok q := by
    unfold request
    rw [Command.toRequest_of_not_write CommandId.noConfusion _ t.encoding, hq]
    rfl
  have hprepare : (Operation.getStatus.prepare c).1 = .ok ⟨[], q⟩ := by
    unfold Operation.getStatus Operation.consult Operation.single
    simp only [bind, Except.bind, hrequest]
    rfl
  -- the token tells its status and stays as it is
  have hrun : Script.run ⟨[], q⟩ Token.line c.options.verifyCrc t = (.ok payload, t) := by
    show q.exchange Token.line _ t = _
    rw [Request.exchange_line hplug hq]
    show ((t.tell _).1.mapError _, (t.tell _).2) = _
    rw [hpayload]
    rfl
  unfold attempt
  rw [Operation.tidy_getStatus.prepare_eq hprepare]
  dsimp only
  rw [hrun]
  unfold Operation.getStatus Operation.consult Operation.single
  simp only [hdecode]
  rfl

/-- **A host that connects to a fresh token goes by its firmware.** -/
theorem World.connect_eq (config : TokenConfig) (verifyCrc : Bool) :
    ∃ client, connect config verifyCrc = .ok ⟨client, .fresh config, []⟩
      ∧ client.capabilities = (Token.fresh config).capabilities := by
  unfold connect Client.connect Client.perform
  rw [Client.attempt_getStatus rfl]
  exact ⟨_, rfl, rfl⟩

end OtpToken

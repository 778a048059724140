/-
  OtpToken.Proofs.Token.Alike
  ───────────────────────────
  **TWO TOKENS THAT HEAR THE SAME REPORTS.**

  What a token lets see is what it replies.  To show that something in it stays
  hidden, two tokens that differ just there are given the same reports.

  * `send_alike`: tokens with the same settings read the same command in a
    report, so that only commands have to be compared.
  * `withTemp_both`, `withPin_both`, …: a guard that looks at what the two have
    in common stops both or lets both pass.
  * `execute_mapStored`: half of the commands look at no slot and at nothing that
    is staged.  They go on in the same way whatever is there, and leave it there.
-/
import OtpToken.Proofs.Token.Dialogue

namespace OtpToken

/-! ## §1. Reports in a row. -/

/-- The reports of commands, those left out that have none. -/
def Command.reports (encoding : CounterEncoding) (cs : List Command) : List Report :=
  cs.filterMap fun c => (c.toRequest encoding).toOption.map Request.toReport

namespace Token

/-- The token after reports, the first one first. -/
def after (t : Token) (reports : List Report) : Token :=
  reports.foldl (fun t report => (t.send report).2) t

/-- What a token replies to reports, the first one first. -/
def replies (t : Token) : List Report → List (Except LineError Report)
  | [] => []
  | report :: reports => (t.send report).1 :: replies (t.send report).2 reports

theorem replies_append (t : Token) (reports more : List Report) :
    t.replies (reports ++ more) = t.replies reports ++ (t.after reports).replies more := by
  induction reports generalizing t with
  | nil => rfl
  | cons report reports ih => exact congrArg (List.cons _) (ih _)

end Token

/-- A dialogue ends with the token that has heard its reports. -/
theorem Dialogue.token_run (d : Dialogue) (reports : List Report) :
    (d.run reports).token = d.token.after reports := by
  induction reports generalizing d with
  | nil => rfl
  | cons report reports ih =>
    show ((d.hear report).run reports).token = _
    rw [ih, d.token_hear]
    rfl

namespace Token

/-! ## §2. One report. -/

variable {t t' : Token}

/-- **Tokens with the same settings read a report alike**: it carries no
command, and leaves both as they are with the same reply, or both answer the
command in it. -/
theorem send_alike (hconfig : t'.config = t.config) (hplug : t'.pluggedIn = t.pluggedIn)
    (report : Report) :
    (∃ reply, t.send report = (reply, t) ∧ t'.send report = (reply, t')
        ∧ ∀ told, reply = .ok told → Command.ofReport? t.encoding report = none)
      ∨ ∃ q c, Command.ofReport? t.encoding report = some c
          ∧ t.send report = (.ok (respond q (t.execute c).1).toReport, (t.execute c).2)
          ∧ t'.send report = (.ok (respond q (t'.execute c).1).toReport, (t'.execute c).2) := by
  have hencoding : t'.encoding = t.encoding :=
    congrArg Capabilities.encoding (capabilities_eq hconfig)
  cases hp : t.pluggedIn with
  | false =>
    refine .inl ⟨.error .disconnected, ?_, ?_, fun told h => nomatch h⟩
    · unfold send
      rw [hp]
      rfl
    · unfold send
      rw [hplug, hp]
      rfl
  | true =>
    rw [send_of_plugged hp, send_of_plugged (hplug.trans hp)]
    unfold Command.ofReport? handle
    rw [hencoding]
    cases hq : Request.ofReport report with
    | error e => exact .inl ⟨_, rfl, rfl, fun _ _ => rfl⟩
    | ok q =>
      dsimp only
      cases hparse : Command.parse q t.encoding with
      | error status => exact .inl ⟨_, rfl, rfl, fun _ _ => rfl⟩
      | ok c => exact .inr ⟨q, c, rfl, rfl, rfl⟩

/-- Tokens that answer the command in a report alike reply alike. -/
theorem reply_alike (hconfig : t'.config = t.config) (hplug : t'.pluggedIn = t.pluggedIn)
    {report : Report} (h : ∀ c, Command.ofReport? t.encoding report = some c →
      (t'.execute c).1 = (t.execute c).1) : (t'.send report).1 = (t.send report).1 := by
  rcases send_alike hconfig hplug report with ⟨reply, hsend, hsend', -⟩ | ⟨q, c, hc, hsend, hsend'⟩
  · rw [hsend, hsend']
  · rw [hsend, hsend', h c hc]

/-- What can be seen of a report with a command, and of the reply to it. -/
theorem seen_respond {report : Report} {c : Command}
    (hc : Command.ofReport? t.encoding report = some c) (q : Request) :
    Exchange.seen t.encoding report (respond q (t.execute c).1).toReport
      = ⟨some c, (t.execute c).1.status⟩ := by
  have hbusy : (t.execute c).1.status ≠ .busy := by
    cases hr : (t.execute c).1 with
    | ok payload => exact Status.noConfusion
    | error status => exact ((effect_execute t c).status_of_error hr).2
  unfold Exchange.seen
  rw [hc, status_respond q hbusy]

end Token

namespace Dialogue

variable {d : Dialogue} {report : Report} {t : Token}

theorem hear_of_reply {reply : Report} (h : d.token.send report = (.ok reply, t)) :
    d.hear report = ⟨t, .seen d.token.encoding report reply :: d.past⟩ := by
  unfold hear
  rw [h]

theorem hear_of_no_reply {why : LineError} (h : d.token.send report = (.error why, t)) :
    d.hear report = ⟨t, d.past⟩ := by
  unfold hear
  rw [h]

/-- Nothing that was said is forgotten. -/
theorem past_suffix (d : Dialogue) (reports : List Report) : d.past <:+ (d.run reports).past := by
  induction reports generalizing d with
  | nil => exact List.suffix_refl _
  | cons report reports ih =>
    refine List.IsSuffix.trans ?_ (ih (d.hear report))
    unfold hear
    split
    · exact List.suffix_refl _
    · exact List.suffix_cons _ _

end Dialogue

namespace Token

variable {t t' : Token}

/-! ## §3. Guards for two. -/

section Both

variable {R : Answer × Token → Answer × Token → Prop} {role : Role} {next next' : Answer × Token}

theorem withTemp_both {temp : Secret} (hsession : t'.session = t.session)
    (hrefuse : R (t.refuse .notAuthorized) (t'.refuse .notAuthorized)) (hnext : R next next') :
    R (t.withTemp role temp next) (t'.withTemp role temp next') := by
  unfold withTemp
  rw [hsession]
  split
  · exact hnext
  · exact hrefuse

theorem withSafe_both (hopen : t'.safeEnabled = t.safeEnabled)
    (hrefuse : R (t.refuse .notAuthorized) (t'.refuse .notAuthorized)) (hnext : R next next') :
    R (t.withSafe next) (t'.withSafe next') := by
  unfold withSafe
  rw [hopen]
  split
  · exact hnext
  · exact hrefuse

theorem withSlot_both {number : UInt8} {next next' : CodeKind → UInt8 → Answer × Token}
    (hrefuse : R (t.refuse .wrongSlot) (t'.refuse .wrongSlot))
    (hnext : ∀ kind index, R (next kind index) (next' kind index)) :
    R (t.withSlot number next) (t'.withSlot number next') := by
  unfold withSlot
  split
  · next kind index _ => exact hnext kind index
  · exact hrefuse

/-- Both have tried the PIN, whether it was right or wrong. -/
theorem withPin_both {pin : Secret} {next next' : Token → Answer × Token}
    (hsession : t'.session = t.session)
    (hrefuse : ∀ status session,
      R (refuse { t with session } status) (refuse { t' with session } status))
    (hnext : ∀ session, R (next { t with session }) (next' { t' with session })) :
    R (t.withPin role pin next) (t'.withPin role pin next') := by
  unfold withPin
  rw [hsession]
  split
  · next session _ => exact hnext session
  · next status session _ => exact hrefuse status session

end Both

end Token

/-! ## §4. Commands that look at no slot. -/

/-- The commands that look at no slot and at nothing that is staged. -/
def CommandId.aside : CommandId → Bool
  | getStatus | setTime | firstAuthenticate | userAuthenticate | getAdminRetryCount
  | getUserRetryCount | unlockUserPassword | changeUserPin | changeAdminPin | lockDevice
  | enableSafe | detectAes => true
  | _ => false

namespace Token

/-- The token with its slots and its staged data changed. -/
def mapStored (t : Token) (f : Store → Store) (g : Staged → Staged) : Token :=
  { t with store := f t.store, staged := g t.staged }

variable {c : Command} {f : Store → Store} {g : Staged → Staged}

/-- A step of the store is taken on with what it left. -/
theorem commit_mapStored (t : Token) (step : Except Status Unit × Store) :
    (t.mapStored f g).commit (step.1, f step.2)
      = ((t.commit step).1, (t.commit step).2.mapStored f g) := rfl

/-- A PIN is tried without a look at what is stored or staged. -/
theorem withPin_mapStored {role : Role} {pin : Secret} (t : Token) (next : Token → Answer × Token)
    (hnext : ∀ t : Token, next (t.mapStored f g) = ((next t).1, (next t).2.mapStored f g)) :
    (t.mapStored f g).withPin role pin next
      = ((t.withPin role pin next).1, (t.withPin role pin next).2.mapStored f g) :=
  withPin_both (R := fun r r' => r' = (r.1, r.2.mapStored f g)) rfl (fun _ _ => rfl)
    fun session => hnext { t with session }

/-- **Such a command does not see what is stored or staged**, apart from the
config register, and hands it on as it is. -/
theorem execute_mapStored (h : c.id.aside = true) (t : Token)
    (hconfig : (f t.store).config = t.store.config) :
    (t.mapStored f g).execute c = ((t.execute c).1, (t.execute c).2.mapStored f g) := by
  cases c with
  | getStatus =>
    show tell _ (StatusRecord.encode ⟨_, _, (f t.store).config, _⟩) = _
    rw [hconfig]
    rfl
  | setTime reset time =>
    show (if !reset && time < t.clock then _ else _) = _
    unfold execute
    dsimp only
    split
    · rfl
    · rfl
  | enableSafe pin =>
    refine withPin_mapStored t (fun t =>
      if t.keyValid then done { t with safeEnabled := true }
      else t.refuse .aesDecryptionFailed) fun t => ?_
    show (if t.keyValid then _ else _) = _
    split
    · rfl
    · rfl
  | detectAes pin => exact withPin_mapStored t (fun t => (.ok (.ofByte 1), t)) fun _ => rfl
  | _ => first | rfl | cases h

end Token

end OtpToken

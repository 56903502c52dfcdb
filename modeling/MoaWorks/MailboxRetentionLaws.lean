-- What a batch of retention does to a row, group by group: it trashes or purges it once, when its
-- guard holds, or leaves it alone.
import MoaWorks.Lib.TableTotals
import MoaWorks.MailboxRetention
import MoaWorks.MailboxSettingsLaws

namespace moaworks.mailbox_settings

open mail_messenger_service (AuthUserSummary Db Mail MailStatus Recipient RowId User)

/-! ## Ages -/

theorem olderThan_iff {n : Nat} {now : Time} {t : Option Time} :
    olderThan n now t = true ↔ ∃ s, t = some s ∧ s + days n < now := by
  unfold olderThan
  rw [Option.any_eq_true]
  simp only [decide_eq_true_eq]

theorem not_before (t d : Nat) : ¬ t + d < t := by omega

/-- What has just been stamped is not old. -/
theorem olderThan_stamp (n : Nat) {now stamp : Time} (h : now ≤ stamp) :
    olderThan n now (some stamp) = false := by
  rw [Bool.eq_false_iff, ne_eq, olderThan_iff]
  rintro ⟨s, hs, hlt⟩
  cases hs
  exact not_before stamp (days n) (Nat.lt_of_lt_of_le hlt h)

theorem olderThan_mono {n : Nat} {now later : Time} {t : Option Time} (h : now ≤ later)
    (hold : olderThan n now t = true) : olderThan n later t = true := by
  obtain ⟨s, hs, hlt⟩ := olderThan_iff.mp hold
  exact olderThan_iff.mpr ⟨s, hs, Nat.lt_of_lt_of_le hlt h⟩

theorem days_lt {n k : Nat} (h : n < k) : days n < days k := by
  have hminutes : 60 * (1440 * n) < 60 * (1440 * k) := by omega
  exact Nat.mul_lt_mul_of_pos_right hminutes (by decide)

/-! ## One row -/

/-- A received mail stays, is purged, or is trashed. -/
def RecipientStep (d : Database) (now stamp : Time) (r r' : Recipient) : Prop :=
  r' = r ∨ (∃ key, purgesRecipient d now key r = true ∧ r' = purgeRecipient stamp r) ∨
    ∃ key, (trashesSpam d now key r = true ∨ trashesReceived d now key r = true) ∧
      r' = trashRecipient stamp r

/-- An own mail stays, is purged, or is trashed. -/
def MailStep (d : Database) (now stamp : Time) (m m' : Mail) : Prop :=
  m' = m ∨ (∃ key, purgesMail now key m = true ∧ m' = purgeMail stamp m) ∨
    ∃ key, trashesMail d now key m = true ∧ m' = retireMail stamp m

/-- What some of the groups of a batch do to the tables. -/
structure Effect (d d' : Database) (now stamp : Time) : Prop where
  policies : d'.policies = d.policies
  settings : d'.mail.settings = d.mail.settings
  recipients : ∀ id, ∃ f, d'.mail.recipients.rows id = (d.mail.recipients.rows id).map f ∧
    ∀ r, d.mail.recipients.rows id = some r → RecipientStep d now stamp r (f r)
  mails : ∀ id, ∃ f, d'.mail.mails.rows id = (d.mail.mails.rows id).map f ∧
    ∀ m, d.mail.mails.rows id = some m → MailStep d now stamp m (f m)

variable {d d' d'' : Database} {now stamp : Time} {id : RowId}

theorem MailStep.kept {m m' : Mail} (h : MailStep d now stamp m m') :
    m'.company_id = m.company_id ∧ m'.status = m.status ∧ m'.sender_user_id = m.sender_user_id ∧
      m'.sender_copy_saved = m.sender_copy_saved ∧ m'.sent_at = m.sent_at := by
  rcases h with rfl | ⟨key, -, rfl⟩ | ⟨key, -, rfl⟩
  · exact ⟨rfl, rfl, rfl, rfl, rfl⟩
  · exact ⟨rfl, rfl, rfl, rfl, rfl⟩
  · exact ⟨rfl, rfl, rfl, rfl, rfl⟩

/-- A row that has changed does not change again. -/
theorem RecipientStep.frozen {r r' r'' : Recipient} (h : RecipientStep d now stamp r r')
    (hne : r' ≠ r) (hstamp : now ≤ stamp) (h' : RecipientStep d now stamp r' r'') : r'' = r' := by
  have hfresh := olderThan_stamp 30 hstamp
  rcases h with rfl | ⟨key, -, rfl⟩ | ⟨key, -, rfl⟩
  · exact absurd rfl hne
  · rcases h' with h' | ⟨k, hk, -⟩ | ⟨k, hk, -⟩
    · exact h'
    · simp [purgesRecipient, purgeRecipient] at hk
    · simp [trashesSpam, trashesReceived, mail_messenger_service.Recipient.live,
        purgeRecipient] at hk
  · rcases h' with h' | ⟨k, hk, -⟩ | ⟨k, hk, -⟩
    · exact h'
    · simp [purgesRecipient, trashRecipient, hfresh] at hk
    · simp [trashesSpam, trashesReceived, mail_messenger_service.Recipient.live,
        trashRecipient] at hk

theorem MailStep.frozen {m m' m'' : Mail} (h : MailStep d now stamp m m') (hne : m' ≠ m)
    (hstamp : now ≤ stamp) (h' : MailStep d now stamp m' m'') : m'' = m' := by
  have hfresh := olderThan_stamp 30 hstamp
  rcases h with rfl | ⟨key, -, rfl⟩ | ⟨key, -, rfl⟩
  · exact absurd rfl hne
  · rcases h' with h' | ⟨k, hk, -⟩ | ⟨k, hk, -⟩
    · exact h'
    · simp [purgesMail, purgeMail] at hk
    · simp [trashesMail, mail_messenger_service.Mail.live, purgeMail] at hk
  · rcases h' with h' | ⟨k, hk, -⟩ | ⟨k, hk, -⟩
    · exact h'
    · simp [purgesMail, retireMail, hfresh] at hk
    · simp [trashesMail, mail_messenger_service.Mail.live, retireMail] at hk

theorem RecipientStep.trans {r r' r'' : Recipient} (h : RecipientStep d now stamp r r')
    (hstamp : now ≤ stamp) (h' : RecipientStep d now stamp r' r'') :
    RecipientStep d now stamp r r'' := by
  rcases eq_or_ne r' r with rfl | hne
  · exact h'
  · rw [h.frozen hne hstamp h']
    exact h

theorem MailStep.trans {m m' m'' : Mail} (h : MailStep d now stamp m m') (hstamp : now ≤ stamp)
    (h' : MailStep d now stamp m' m'') : MailStep d now stamp m m'' := by
  rcases eq_or_ne m' m with rfl | hne
  · exact h'
  · rw [h.frozen hne hstamp h']
    exact h

/-! ## The groups of a batch -/

/-- No group changes what the guards ask of mails, users and policies. -/
theorem Effect.received (h : Effect d d' now stamp) (b : AuthUserSummary) (r : Recipient) :
    received d' b r = received d b r := by
  obtain ⟨f, hf, hstep⟩ := h.mails r.message_id
  unfold mailbox_settings.received mail_messenger_service.Db.joined
  rw [hf]
  rcases hm : d.mail.mails.rows r.message_id with _ | m
  · rfl
  · obtain ⟨hcompany, hstatus, -⟩ := (hstep m hm).kept
    simp [mail_messenger_service.AuthUserSummary.within, hcompany, hstatus]

theorem Effect.receivedIn (h : Effect d d' now stamp) (key : GroupKey) (r : Recipient) :
    receivedIn d' key r = receivedIn d key r := by
  unfold mailbox_settings.receivedIn
  simp only [h.settings, h.received]

theorem Effect.recipientStep (h : Effect d d' now stamp) {r r' : Recipient}
    (hstep : RecipientStep d' now stamp r r') : RecipientStep d now stamp r r' := by
  simpa only [RecipientStep, purgesRecipient, trashesSpam, trashesReceived, keyPolicy, h.receivedIn,
    h.policies] using hstep

theorem Effect.mailStep (h : Effect d d' now stamp) {m m' : Mail}
    (hstep : MailStep d' now stamp m m') : MailStep d now stamp m m' := by
  simpa only [MailStep, trashesMail, ownPolicy, h.policies] using hstep

theorem Effect.refl (d : Database) (now stamp : Time) : Effect d d now stamp where
  policies := rfl
  settings := rfl
  recipients id := ⟨fun r => r, by simp, fun _ _ => Or.inl rfl⟩
  mails id := ⟨fun m => m, by simp, fun _ _ => Or.inl rfl⟩

theorem Effect.trans (h : Effect d d' now stamp) (hstamp : now ≤ stamp)
    (h' : Effect d' d'' now stamp) : Effect d d'' now stamp where
  policies := h'.policies.trans h.policies
  settings := h'.settings.trans h.settings
  recipients id := by
    obtain ⟨f, hf, hstep⟩ := h.recipients id
    obtain ⟨g, hg, hstep'⟩ := h'.recipients id
    refine ⟨fun r => g (f r), by rw [hg, hf, Option.map_map]; rfl, fun r hr => ?_⟩
    have hr' : d'.mail.recipients.rows id = some (f r) := by rw [hf, hr]; rfl
    exact (hstep r hr).trans hstamp (h.recipientStep (hstep' (f r) hr'))
  mails id := by
    obtain ⟨f, hf, hstep⟩ := h.mails id
    obtain ⟨g, hg, hstep'⟩ := h'.mails id
    refine ⟨fun m => g (f m), by rw [hg, hf, Option.map_map]; rfl, fun m hm => ?_⟩
    have hm' : d'.mail.mails.rows id = some (f m) := by rw [hf, hm]; rfl
    exact (hstep m hm).trans hstamp (h.mailStep (hstep' (f m) hm'))

theorem effect_updateRecipients {ids : List RowId} {p : Recipient → Bool}
    {f : Recipient → Recipient} (h : ∀ r, p r = true → RecipientStep d now stamp r (f r)) :
    Effect d (updateRecipients d ids p f) now stamp where
  policies := rfl
  settings := rfl
  recipients id := by
    refine ⟨_, rfl, fun r _ => ?_⟩
    dsimp only
    split_ifs with hp
    · exact h r (Bool.and_eq_true_iff.mp hp).2
    · exact Or.inl rfl
  mails id := ⟨fun m => m, by simp [updateRecipients], fun _ _ => Or.inl rfl⟩

theorem effect_updateMails {ids : List RowId} {p : Mail → Bool} {f : Mail → Mail}
    (h : ∀ m, p m = true → MailStep d now stamp m (f m)) :
    Effect d (updateMails d ids p f) now stamp where
  policies := rfl
  settings := rfl
  recipients id := ⟨fun r => r, by simp [updateMails], fun _ _ => Or.inl rfl⟩
  mails id := by
    refine ⟨_, rfl, fun m _ => ?_⟩
    dsimp only
    split_ifs with hp
    · exact h m (Bool.and_eq_true_iff.mp hp).2
    · exact Or.inl rfl

/-- The WHERE clause of a group of received mail. -/
def recipientGuard (d : Database) (now : Time) (key : GroupKey) (r : Recipient) : Bool :=
  match key.action with
  | .purge => purgesRecipient d now key r
  | .trash => if key.mailbox = .spam then trashesSpam d now key r else trashesReceived d now key r

/-- What its UPDATE writes. -/
def recipientWrite (stamp : Time) (key : GroupKey) : Recipient → Recipient :=
  match key.action with
  | .purge => purgeRecipient stamp
  | .trash => trashRecipient stamp

def mailGuard (d : Database) (now : Time) (key : GroupKey) (m : Mail) : Bool :=
  match key.action with
  | .purge => purgesMail now key m
  | .trash => trashesMail d now key m

def mailWrite (stamp : Time) (key : GroupKey) : Mail → Mail :=
  match key.action with
  | .purge => purgeMail stamp
  | .trash => retireMail stamp

theorem applyGroup_recipient {group : GroupKey × List RowId}
    (h : group.1.view_type = .recipient) : applyGroup d now stamp group =
      updateRecipients d group.2 (recipientGuard d now group.1) (recipientWrite stamp group.1) := by
  obtain ⟨⟨view_type, action, mailbox, company_id, user_id⟩, ids⟩ := group
  cases h
  cases action with
  | purge => rfl
  | trash =>
    by_cases hspam : mailbox = .spam
    · subst hspam
      rfl
    · have hguard : recipientGuard d now ⟨.recipient, .trash, mailbox, company_id, user_id⟩ =
          trashesReceived d now ⟨.recipient, .trash, mailbox, company_id, user_id⟩ :=
        funext (fun r => if_neg hspam)
      rw [hguard]
      exact if_neg hspam

theorem applyGroup_sender {group : GroupKey × List RowId} (h : group.1.view_type = .sender) :
    applyGroup d now stamp group =
      updateMails d group.2 (mailGuard d now group.1) (mailWrite stamp group.1) := by
  obtain ⟨⟨view_type, action, mailbox, company_id, user_id⟩, ids⟩ := group
  cases h
  cases action with
  | purge => rfl
  | trash => rfl

theorem recipientStep_of_guard {key : GroupKey} {r : Recipient}
    (h : recipientGuard d now key r = true) :
    RecipientStep d now stamp r (recipientWrite stamp key r) := by
  unfold recipientGuard at h
  unfold recipientWrite
  cases haction : key.action with
  | purge =>
    rw [haction] at h
    exact Or.inr (Or.inl ⟨key, h, rfl⟩)
  | trash =>
    rw [haction] at h
    refine Or.inr (Or.inr ⟨key, ?_, rfl⟩)
    dsimp only at h
    split_ifs at h with hspam
    · exact Or.inl h
    · exact Or.inr h

theorem mailStep_of_guard {key : GroupKey} {m : Mail} (h : mailGuard d now key m = true) :
    MailStep d now stamp m (mailWrite stamp key m) := by
  unfold mailGuard at h
  unfold mailWrite
  cases haction : key.action with
  | purge =>
    rw [haction] at h
    exact Or.inr (Or.inl ⟨key, h, rfl⟩)
  | trash =>
    rw [haction] at h
    exact Or.inr (Or.inr ⟨key, h, rfl⟩)

theorem effect_applyGroup (d : Database) (now stamp : Time) (group : GroupKey × List RowId) :
    Effect d (applyGroup d now stamp group) now stamp := by
  cases h : group.1.view_type with
  | recipient =>
    rw [applyGroup_recipient h]
    exact effect_updateRecipients (fun _ => recipientStep_of_guard)
  | sender =>
    rw [applyGroup_sender h]
    exact effect_updateMails (fun _ => mailStep_of_guard)

theorem effect_groups (hstamp : now ≤ stamp) (groups : List (GroupKey × List RowId))
    (d : Database) :
    Effect d (groups.foldl (fun d group => applyGroup d now stamp group) d) now stamp := by
  induction groups generalizing d with
  | nil => exact Effect.refl d now stamp
  | cons group groups ih => exact (effect_applyGroup d now stamp group).trans hstamp (ih _)

theorem effect_apply (hstamp : now ≤ stamp) (d : Database) (batch : List Candidate) :
    Effect d (_apply_retention_candidates d batch now stamp) now stamp :=
  effect_groups hstamp _ d

/-! ## The candidate of a row -/

/-- What a guard selects is changed by its UPDATE. -/
theorem recipientWrite_ne {key : GroupKey} {r : Recipient} (h : recipientGuard d now key r = true) :
    recipientWrite stamp key r ≠ r := by
  unfold recipientGuard at h
  unfold recipientWrite
  intro heq
  cases haction : key.action with
  | purge =>
    rw [haction] at h heq
    have hpurged := congrArg Recipient.purged_at heq
    simp only [purgesRecipient, ← hpurged, purgeRecipient, Option.isNone_some, Bool.and_false,
      Bool.false_eq_true] at h
  | trash =>
    rw [haction] at h heq
    have hdeleted := congrArg Recipient.deleted_at heq
    simp only [trashesSpam, trashesReceived, mail_messenger_service.Recipient.live, ← hdeleted,
      trashRecipient, Option.isNone_some, Bool.false_and, Bool.and_false, Bool.false_eq_true,
      ite_self] at h

theorem mailWrite_ne {key : GroupKey} {m : Mail} (h : mailGuard d now key m = true) :
    mailWrite stamp key m ≠ m := by
  unfold mailGuard at h
  unfold mailWrite
  intro heq
  cases haction : key.action with
  | purge =>
    rw [haction] at h heq
    have hpurged := congrArg Mail.sender_purged_at heq
    simp only [purgesMail, ← hpurged, purgeMail, Option.isNone_some, Bool.and_false,
      Bool.false_eq_true] at h
  | trash =>
    rw [haction] at h heq
    have hdeleted := congrArg Mail.sender_deleted_at heq
    simp only [trashesMail, mail_messenger_service.Mail.live, ← hdeleted, retireMail,
      Option.isNone_some, Bool.false_and, Bool.and_false, Bool.false_eq_true] at h

theorem Effect.recipientGuard (h : Effect d d' now stamp) (key : GroupKey) (r : Recipient) :
    recipientGuard d' now key r = recipientGuard d now key r := by
  unfold mailbox_settings.recipientGuard purgesRecipient trashesSpam trashesReceived keyPolicy
  simp only [h.receivedIn, h.policies]

theorem Effect.mailGuard (h : Effect d d' now stamp) (key : GroupKey) (m : Mail) :
    mailGuard d' now key m = mailGuard d now key m := by
  unfold mailbox_settings.mailGuard trashesMail ownPolicy
  simp only [h.policies]

/-- The group of a candidate, with the groups before it and after it. -/
theorem group_of {batch : List Candidate} {c : Candidate} (hc : c ∈ batch) :
    ∃ before after ids, groupsOf batch = before ++ (c.key, ids) :: after ∧ c.view_id ∈ ids := by
  have hkey : c.key ∈ (batch.map Candidate.key).eraseDups :=
    List.mem_eraseDups.mpr (List.mem_map_of_mem hc)
  have hgroup : (c.key, (batch.filter (fun c' => c'.key = c.key)).map Candidate.view_id) ∈
      groupsOf batch := List.mem_map_of_mem hkey
  obtain ⟨before, after, heq⟩ := List.append_of_mem hgroup
  exact ⟨before, after, _, heq,
    List.mem_map_of_mem (List.mem_filter.mpr ⟨hc, decide_eq_true rfl⟩)⟩

/-- The row of a candidate for which the guard holds changes. -/
theorem recipient_changes {batch : List Candidate} {c : Candidate} {r : Recipient}
    (hstamp : now ≤ stamp) (hc : c ∈ batch) (htype : c.view_type = .recipient)
    (hr : d.mail.recipients.rows c.view_id = some r) (hguard : recipientGuard d now c.key r = true) :
    ∃ r', (_apply_retention_candidates d batch now stamp).mail.recipients.rows c.view_id = some r' ∧
      RecipientStep d now stamp r r' ∧ r' ≠ r := by
  obtain ⟨before, after, ids, heq, hid⟩ := group_of hc
  unfold _apply_retention_candidates
  rw [heq, List.foldl_append, List.foldl_cons]
  have hbefore := effect_groups hstamp before d
  obtain ⟨f, hf, hfirst⟩ := hbefore.recipients c.view_id
  set d₁ := before.foldl (fun d group => applyGroup d now stamp group) d
  have hr₁ : d₁.mail.recipients.rows c.view_id = some (f r) := by rw [hf, hr]; rfl
  have hgroup := effect_applyGroup d₁ now stamp (c.key, ids)
  obtain ⟨g, hg, hsecond⟩ := hgroup.recipients c.view_id
  have hafter := effect_groups hstamp after (applyGroup d₁ now stamp (c.key, ids))
  obtain ⟨k, hk, hthird⟩ := hafter.recipients c.view_id
  have hr₂ : (applyGroup d₁ now stamp (c.key, ids)).mail.recipients.rows c.view_id =
      some (g (f r)) := by rw [hg, hr₁]; rfl
  have hstep₂ := hbefore.recipientStep (hsecond _ hr₁)
  have hstep₃ := (hbefore.trans hstamp hgroup).recipientStep (hthird _ hr₂)
  -- By the end of its group the row has changed: earlier, or by this group.
  have hne : g (f r) ≠ r := by
    rcases eq_or_ne (f r) r with hsame | hchanged
    · have hwrite : (applyGroup d₁ now stamp (c.key, ids)).mail.recipients.rows c.view_id =
          some (recipientWrite stamp c.key r) := by
        rw [applyGroup_recipient htype]
        change (d₁.mail.recipients.rows c.view_id).map _ = _
        rw [hr₁, hsame, Option.map_some]
        simp [hid, hbefore.recipientGuard, hguard]
      rw [Option.some.inj (hr₂.symm.trans hwrite)]
      exact recipientWrite_ne hguard
    · rw [(hfirst r hr).frozen hchanged hstamp hstep₂]
      exact hchanged
  have hstep := (hfirst r hr).trans hstamp hstep₂
  refine ⟨k (g (f r)), by rw [hk, hr₂]; rfl, hstep.trans hstamp hstep₃, ?_⟩
  rw [hstep.frozen hne hstamp hstep₃]
  exact hne

theorem mail_changes {batch : List Candidate} {c : Candidate} {m : Mail}
    (hstamp : now ≤ stamp) (hc : c ∈ batch) (htype : c.view_type = .sender)
    (hm : d.mail.mails.rows c.view_id = some m) (hguard : mailGuard d now c.key m = true) :
    ∃ m', (_apply_retention_candidates d batch now stamp).mail.mails.rows c.view_id = some m' ∧
      MailStep d now stamp m m' ∧ m' ≠ m := by
  obtain ⟨before, after, ids, heq, hid⟩ := group_of hc
  unfold _apply_retention_candidates
  rw [heq, List.foldl_append, List.foldl_cons]
  have hbefore := effect_groups hstamp before d
  obtain ⟨f, hf, hfirst⟩ := hbefore.mails c.view_id
  set d₁ := before.foldl (fun d group => applyGroup d now stamp group) d
  have hm₁ : d₁.mail.mails.rows c.view_id = some (f m) := by rw [hf, hm]; rfl
  have hgroup := effect_applyGroup d₁ now stamp (c.key, ids)
  obtain ⟨g, hg, hsecond⟩ := hgroup.mails c.view_id
  have hafter := effect_groups hstamp after (applyGroup d₁ now stamp (c.key, ids))
  obtain ⟨k, hk, hthird⟩ := hafter.mails c.view_id
  have hm₂ : (applyGroup d₁ now stamp (c.key, ids)).mail.mails.rows c.view_id =
      some (g (f m)) := by rw [hg, hm₁]; rfl
  have hstep₂ := hbefore.mailStep (hsecond _ hm₁)
  have hstep₃ := (hbefore.trans hstamp hgroup).mailStep (hthird _ hm₂)
  have hne : g (f m) ≠ m := by
    rcases eq_or_ne (f m) m with hsame | hchanged
    · have hwrite : (applyGroup d₁ now stamp (c.key, ids)).mail.mails.rows c.view_id =
          some (mailWrite stamp c.key m) := by
        rw [applyGroup_sender htype]
        change (d₁.mail.mails.rows c.view_id).map _ = _
        rw [hm₁, hsame, Option.map_some]
        simp [hid, hbefore.mailGuard, hguard]
      rw [Option.some.inj (hm₂.symm.trans hwrite)]
      exact mailWrite_ne hguard
    · rw [(hfirst m hm).frozen hchanged hstamp hstep₂]
      exact hchanged
  have hstep := (hfirst m hm).trans hstamp hstep₂
  refine ⟨k (g (f m)), by rw [hk, hm₂]; rfl, hstep.trans hstamp hstep₃, ?_⟩
  rw [hstep.frozen hne hstamp hstep₃]
  exact hne

end moaworks.mailbox_settings

-- A run of batches clears the trash: as long as something late is left, each batch trashes or purges
-- one row more.
import MoaWorks.Lib.TableTotals
import MoaWorks.MailAccess
import MoaWorks.MailboxRetentionRuns

namespace moaworks.mailbox_settings

open mail_messenger_service (AuthUserSummary Db Mail MailStatus Owner Recipient RowId User)

variable {d d' : Database} {now stamp : Time} {id : RowId}

/-! ## What is left to do -/

/-- How often a row may still change. -/
def recipientWeight (r : Recipient) : Nat :=
  if r.purged_at.isSome then 0 else if r.deleted_at.isSome then 1 else 2

def mailWeight (m : Mail) : Nat :=
  if m.sender_purged_at.isSome then 0 else if m.sender_deleted_at.isSome then 1 else 2

def backlog (d : Database) : Nat :=
  d.mail.recipients.total (fun _ r => recipientWeight r) +
    d.mail.mails.total (fun _ m => mailWeight m)

theorem RecipientStep.weight_lt {r r' : Recipient} (h : RecipientStep d now stamp r r')
    (hne : r' ≠ r) : recipientWeight r' < recipientWeight r := by
  rcases h with h | ⟨key, hkey, rfl⟩ | ⟨key, hkey, rfl⟩
  · exact absurd h hne
  · simp only [purgesRecipient, Bool.and_eq_true, Option.isNone_iff_eq_none] at hkey
    simp [recipientWeight, purgeRecipient, hkey.2, hkey.1.1.2]
  · simp only [trashesSpam, trashesReceived, mail_messenger_service.Recipient.live,
      Bool.and_eq_true, Option.isNone_iff_eq_none] at hkey
    have hlive : r.deleted_at = none ∧ r.purged_at = none := by
      rcases hkey with hkey | hkey
      · exact hkey.1.1.2
      · exact hkey.1.1.1.2
    simp [recipientWeight, trashRecipient, hlive]

theorem MailStep.weight_lt {m m' : Mail} (h : MailStep d now stamp m m') (hne : m' ≠ m) :
    mailWeight m' < mailWeight m := by
  rcases h with h | ⟨key, hkey, rfl⟩ | ⟨key, hkey, rfl⟩
  · exact absurd h hne
  · simp only [purgesMail, Bool.and_eq_true, Option.isNone_iff_eq_none] at hkey
    simp [mailWeight, purgeMail, hkey.2, hkey.1.1.2]
  · simp only [trashesMail, mail_messenger_service.Mail.live, Bool.and_eq_true,
      Option.isNone_iff_eq_none] at hkey
    simp [mailWeight, retireMail, hkey.1.2]

theorem Effect.recipient_share (h : Effect d d' now stamp) (id : RowId) :
    d'.mail.recipients.share (fun _ r => recipientWeight r) id ≤
      d.mail.recipients.share (fun _ r => recipientWeight r) id := by
  obtain ⟨f, hf, hstep⟩ := h.recipients id
  rcases hr : d.mail.recipients.rows id with _ | r
  · rw [hr] at hf
    rw [Table.share_of_none hf]
    exact Nat.zero_le _
  · rw [hr] at hf
    rw [Table.share_of_some hf, Table.share_of_some hr]
    rcases eq_or_ne (f r) r with heq | hne
    · rw [heq]
    · exact Nat.le_of_lt ((hstep r hr).weight_lt hne)

theorem Effect.mail_share (h : Effect d d' now stamp) (id : RowId) :
    d'.mail.mails.share (fun _ m => mailWeight m) id ≤
      d.mail.mails.share (fun _ m => mailWeight m) id := by
  obtain ⟨f, hf, hstep⟩ := h.mails id
  rcases hm : d.mail.mails.rows id with _ | m
  · rw [hm] at hf
    rw [Table.share_of_none hf]
    exact Nat.zero_le _
  · rw [hm] at hf
    rw [Table.share_of_some hf, Table.share_of_some hm]
    rcases eq_or_ne (f m) m with heq | hne
    · rw [heq]
    · exact Nat.le_of_lt ((hstep m hm).weight_lt hne)

theorem Effect.backlog_of_recipient (h : Effect d d' now stamp) {r r' : Recipient}
    (hr : d.mail.recipients.rows id = some r) (hr' : d'.mail.recipients.rows id = some r')
    (hstep : RecipientStep d now stamp r r') (hne : r' ≠ r) : backlog d' < backlog d := by
  refine Nat.add_lt_add_of_lt_of_le (Table.total_lt_of_share h.recipient_share (k := id) ?_)
    (Table.total_le_of_share h.mail_share)
  rw [Table.share_of_some hr, Table.share_of_some hr']
  exact hstep.weight_lt hne

theorem Effect.backlog_of_mail (h : Effect d d' now stamp) {m m' : Mail}
    (hm : d.mail.mails.rows id = some m) (hm' : d'.mail.mails.rows id = some m')
    (hstep : MailStep d now stamp m m') (hne : m' ≠ m) : backlog d' < backlog d := by
  refine Nat.add_lt_add_of_le_of_lt (Table.total_le_of_share h.recipient_share)
    (Table.total_lt_of_share h.mail_share (k := id) ?_)
  rw [Table.share_of_some hm, Table.share_of_some hm']
  exact hstep.weight_lt hne

/-! ## Candidates that an update leaves alone -/

theorem recipient_guard {user_id : String} {u : User} {r : Recipient} {c : Candidate}
    (hcandidate : recipientCandidate d now user_id u id r = some c)
    (hu : d.mail.settings.users.rows user_id = some u) : recipientGuard d now c.key r = true := by
  cases haction : c.action with
  | purge => exact (purge_recipient_guard hcandidate haction rfl hu).1
  | trash =>
    obtain ⟨hreceived, hpurged, hold, rfl⟩ := recipientCandidate_some hcandidate
    have hdeleted : r.deleted_at = none := by
      by_contra hsome
      simp [Option.isSome_iff_ne_none.mpr hsome] at haction
    have hin : ∀ mailbox, receivedIn d ⟨.recipient, .trash, mailbox, u.company_id, some user_id⟩ r =
        true := fun mailbox => receivedIn_of hu rfl rfl hreceived
    unfold recipientGuard Candidate.key retentionMailbox
    dsimp only at haction ⊢
    rw [haction]
    rw [hdeleted] at hold
    rcases hold with ⟨hsome, -⟩ | ⟨-, hspam, hold⟩ | ⟨-, hspam, hold⟩
    · cases hsome
    · simp [trashesSpam, mail_messenger_service.Recipient.live, hdeleted, hspam, hin, hpurged, hold]
    · unfold receivedPolicy at hold
      rcases hfolder : r.folder_id with _ | f
      · rw [hfolder] at hold
        simp [trashesReceived, mail_messenger_service.Recipient.live, hdeleted, hspam, hin, hpurged,
          keyPolicy, keyFolder, hfolder, hold]
      · rw [hfolder] at hold
        simp [trashesReceived, mail_messenger_service.Recipient.live, hdeleted, hspam, hin, hpurged,
          keyPolicy, keyFolder, hfolder, hold]

/-- The query takes the time of sending before the time of the last edit, the update by the status:
for a draft with a time of sending they differ. -/
theorem mail_guard {m : Mail} {c : Candidate} (hsender : KnownSenders d)
    (hm : d.mail.mails.rows id = some m) (hcandidate : senderCandidate d now id m = some c)
    (hdated : c.action = .trash → m.status = .draft → m.sent_at = none)
    (heligible : c.eligible_at.isSome = true) : mailGuard d now c.key m = true := by
  obtain ⟨hpurged, hstatus, hsaved, hold, mailbox, hmailbox, heq⟩ := senderCandidate_some hcandidate
  rcases hdeleted : m.sender_deleted_at with _ | t
  · subst heq
    rw [hdeleted] at hold heligible
    dsimp only at hdated heligible
    rw [hdeleted] at hdated
    rcases hold with ⟨hsome, -⟩ | ⟨-, hold⟩
    · cases hsome
    have hcolumn : (m.sent_at <|> some m.updated_at) =
        if m.status = .sent then m.sent_at else some m.updated_at := by
      rcases hstatus with hsent | hdraft
      · rw [if_pos hsent] at heligible ⊢
        obtain ⟨s, hs⟩ := Option.isSome_iff_exists.mp heligible
        rw [show m.sent_at = some s from hs]
        rfl
      · rw [hdated rfl hdraft, if_neg (by rw [hdraft]; nofun)]
        rfl
    have hknown : m.sender_user_id.isSome = true := by
      obtain ⟨n, hn, -⟩ := pastPolicy_iff.mp hold
      unfold ownPolicy at hn
      by_contra hnone
      rw [Option.not_isSome_iff_eq_none.mp hnone] at hn
      cases hn
    have hin : writtenIn ⟨.sender, .trash, mailbox, m.company_id, m.sender_user_id⟩ m = true :=
      writtenIn_of rfl rfl hknown
    have hplace : statusMailbox m.status = some mailbox := by
      rw [← hmailbox]
      simp [senderMailbox, hdeleted]
    rw [hcolumn] at hold
    unfold mailGuard Candidate.key
    simp [hdeleted, trashesMail, hin, hplace, hsaved, hold, mail_messenger_service.Mail.live,
      hpurged]
  · have hsome : m.sender_deleted_at.isSome = true := by rw [hdeleted]; rfl
    have hpurge : c.action = .purge := by rw [heq, hsome, if_pos rfl]
    exact purge_mail_guard hcandidate hpurge (hsender id m hm hsome hpurged hstatus hsaved)

theorem mem_datedDrafts : id ∈ datedDrafts d ↔
    ∃ m, d.mail.mails.rows id = some m ∧ m.status = .draft ∧ m.sent_at.isSome = true := by
  unfold datedDrafts
  rw [Table.mem_select]
  simp only [Bool.and_eq_true, decide_eq_true_eq]

/-- A candidate that may come before others and is not a draft with a time of sending brings the
backlog down. -/
theorem candidate_counts {batch : List Candidate} {c : Candidate} (hsender : KnownSenders d)
    (hstamp : now ≤ stamp) (hc : c ∈ batch) (hmem : c ∈ candidates d now)
    (heligible : c.eligible_at.isSome = true)
    (hdated : c.action = .trash → c.view_type = .sender → c.view_id ∉ datedDrafts d) :
    backlog (_apply_retention_candidates d batch now stamp) < backlog d := by
  have heffect := effect_apply hstamp d batch
  rcases mem_candidates.mp hmem with ⟨user_id, u, id, r, hu, hr, hcandidate⟩ | ⟨id, m, hm, hcandidate⟩
  · have hguard := recipient_guard hcandidate hu
    obtain ⟨-, -, -, heq⟩ := recipientCandidate_some hcandidate
    have htype : c.view_type = .recipient := by rw [heq]
    have hid : c.view_id = id := by rw [heq]
    obtain ⟨r', hr', hstep, hne⟩ := recipient_changes hstamp hc htype (hid ▸ hr) hguard
    exact heffect.backlog_of_recipient (hid ▸ hr) hr' hstep hne
  · obtain ⟨-, -, -, -, mailbox, -, heq⟩ := senderCandidate_some hcandidate
    have htype : c.view_type = .sender := by rw [heq]
    have hid : c.view_id = id := by rw [heq]
    have hguard : mailGuard d now c.key m = true := by
      refine mail_guard hsender hm hcandidate (fun haction hdraft => ?_) heligible
      by_contra hsent
      rw [hid] at hdated
      exact hdated haction htype (mem_datedDrafts.mpr
        ⟨m, hm, hdraft, Option.isSome_iff_ne_none.mpr hsent⟩)
    obtain ⟨m', hm', hstep, hne⟩ := mail_changes hstamp hc htype (hid ▸ hm) hguard
    exact heffect.backlog_of_mail (hid ▸ hm) hm' hstep hne

/-! ## One batch -/

theorem purge_eligible {c : Candidate} (hc : c ∈ candidates d now) (haction : c.action = .purge) :
    c.eligible_at.isSome = true := by
  rcases mem_candidates.mp hc with ⟨user_id, u, id, r, -, -, hcandidate⟩ | ⟨id, m, -, hcandidate⟩
  · obtain ⟨-, -, -, rfl⟩ := recipientCandidate_some hcandidate
    dsimp only at haction ⊢
    rcases hdeleted : r.deleted_at with _ | t
    · rw [hdeleted] at haction
      cases haction
    · rfl
  · obtain ⟨-, -, -, -, mailbox, -, rfl⟩ := senderCandidate_some hcandidate
    dsimp only at haction ⊢
    rcases hdeleted : m.sender_deleted_at with _ | t
    · rw [hdeleted] at haction
      cases haction
    · rfl

/-- No two candidates of own mail are of one mail. -/
theorem nodup_sender_ids : ((senderCandidates d now).map Candidate.view_id).Nodup := by
  refine Table.nodup_map_collect (fun id m c hcandidate => ?_)
  obtain ⟨-, -, -, -, mailbox, -, rfl⟩ := senderCandidate_some hcandidate
  rfl

theorem filter_sender : (candidates d now).filter (fun c => c.view_type = .sender) =
    senderCandidates d now := by
  have hrecipient : (recipientCandidates d now).filter (fun c => c.view_type = .sender) = 0 := by
    refine Multiset.filter_eq_nil.mpr (fun c hc htype => ?_)
    obtain ⟨user_id, u, id, r, -, -, hcandidate⟩ := mem_recipientCandidates.mp hc
    obtain ⟨-, -, -, rfl⟩ := recipientCandidate_some hcandidate
    cases htype
  have hsender : (senderCandidates d now).filter (fun c => c.view_type = .sender) =
      senderCandidates d now := by
    refine Multiset.filter_eq_self.mpr (fun c hc => ?_)
    obtain ⟨id, m, -, hcandidate⟩ := Table.mem_collect.mp hc
    obtain ⟨-, -, -, -, mailbox, -, rfl⟩ := senderCandidate_some hcandidate
    rfl
  unfold candidates
  rw [Multiset.filter_add, hrecipient, hsender, zero_add]

/-- A batch of more candidates than there are drafts with a time of sending has another one. -/
theorem exists_other {batch : List Candidate} (hsub : (batch : Multiset Candidate) ≤ candidates d now)
    (hlong : (datedDrafts d).card < batch.length) :
    ∃ c ∈ batch, c.action = .trash → c.view_type = .sender → c.view_id ∉ datedDrafts d := by
  by_contra hall
  push Not at hall
  have hown : (batch : Multiset Candidate) ≤ senderCandidates d now := by
    rw [← filter_sender]
    exact Multiset.le_filter.mpr ⟨hsub, fun c hc => (hall c (Multiset.mem_coe.mp hc)).2.1⟩
  have hnodup : (batch.map Candidate.view_id).Nodup := by
    have h := Multiset.nodup_of_le (Multiset.map_le_map hown) (nodup_sender_ids)
    rwa [Multiset.map_coe, Multiset.coe_nodup] at h
  have hcard : (batch.map Candidate.view_id).toFinset ⊆ datedDrafts d := by
    intro id hid
    obtain ⟨c, hc, rfl⟩ := List.mem_map.mp (List.mem_toFinset.mp hid)
    exact (hall c hc).2.2
  have hle := Finset.card_le_card hcard
  rw [List.toFinset_card_of_nodup hnodup, List.length_map] at hle
  exact absurd hlong (Nat.not_lt.mpr hle)

/-- What is late leads to a candidate, which has a time in the order of the candidates. -/
theorem Late.candidate {start : Time} (h : Late d now) (hle : now ≤ start)
    (hordinary : OrdinaryTrash d) : ∃ c ∈ candidates d start, c.action = .purge ∧
      c.eligible_at.isSome = true := by
  obtain ⟨user_id, u, hu, ⟨id, r, hr, hcounts, hold⟩ | ⟨id, m, hm, hcounts, hold⟩⟩ := h
  · obtain ⟨c, hc, -, -, haction⟩ := (covered_iff.mpr hordinary start user_id u hu).1 id r hr hcounts
      (olderThan_mono hle hold)
    exact ⟨c, hc, haction, purge_eligible hc haction⟩
  · obtain ⟨c, hc, -, -, haction⟩ := (covered_iff.mpr hordinary start user_id u hu).2 id m hm hcounts
      (olderThan_mono hle hold)
    exact ⟨c, hc, haction, purge_eligible hc haction⟩

/-- While something is late, a batch brings the backlog down: what is late may have no place in it,
but then the batch is full of what comes before. -/
theorem batch_counts {limit : Nat} {start : Time} {batch : List Candidate}
    (hordinary : OrdinaryTrash d) (hsender : KnownSenders d)
    (hdated : (datedDrafts d).card < limit) (hlate : Late d now) (hle : now ≤ start)
    (hstamp : start ≤ stamp) (hbatch : IsBatch d start limit batch) :
    backlog (_apply_retention_candidates d batch start stamp) < backlog d := by
  obtain ⟨c, hc, haction, heligible⟩ := hlate.candidate hle hordinary
  obtain ⟨all, hall, hsorted, rfl⟩ := hbatch
  have hsub : ((all.take limit : List Candidate) : Multiset Candidate) ≤ candidates d start := by
    rw [← hall]
    exact Multiset.coe_le.mpr (List.take_sublist limit all).subperm
  have hmem : c ∈ all.take limit ++ all.drop limit := by
    rw [List.take_append_drop]
    exact Multiset.mem_coe.mp (hall ▸ hc)
  rcases List.mem_append.mp hmem with htaken | hdropped
  · exact candidate_counts hsender hstamp htaken hc heligible
      (fun htrash => absurd (haction.symm.trans htrash) nofun)
  · have hlength : (all.take limit).length = limit := by
      rw [List.length_take]
      refine Nat.min_eq_left (Nat.le_of_lt ?_)
      have hpos := List.length_pos_of_mem hdropped
      rw [List.length_drop] at hpos
      exact Nat.lt_of_sub_pos hpos
    obtain ⟨b, hb, hother⟩ := exists_other hsub (hlength.symm ▸ hdated)
    have hbefore : b.first c := by
      rw [← List.take_append_drop limit all] at hsorted
      exact (List.pairwise_append.mp hsorted).2.2 b hb c hdropped
    obtain ⟨t, ht⟩ := Option.isSome_iff_exists.mp heligible
    obtain ⟨s, hs, -⟩ := hbefore t ht
    have hb' : b ∈ candidates d start := Multiset.mem_of_le hsub (Multiset.mem_coe.mpr hb)
    exact candidate_counts hsender hstamp hb hb' (Option.isSome_iff_exists.mpr ⟨s, hs⟩) hother

/-! ## What a batch keeps -/

theorem trashesMail_status {key : GroupKey} {m : Mail} (h : trashesMail d now key m = true) :
    m.status = .sent ∨ m.status = .draft := by
  simp only [trashesMail, Bool.and_eq_true] at h
  obtain ⟨n, hn, -⟩ := pastPolicy_iff.mp h.2
  unfold ownPolicy at hn
  rcases hsender : m.sender_user_id with _ | user_id
  · rw [hsender] at hn
    cases hn
  · rw [hsender, Option.bind_some] at hn
    cases hstatus : m.status with
    | sent => exact Or.inl rfl
    | draft => exact Or.inr rfl
    | scheduled =>
      rw [hstatus] at hn
      cases hn
    | cancelled =>
      rw [hstatus] at hn
      cases hn

theorem Effect.ordinaryTrash (h : Effect d d' now stamp) (hordinary : OrdinaryTrash d) :
    OrdinaryTrash d' := by
  intro user_id u id m' hu hm' hcounts
  obtain ⟨f, hf, hstep⟩ := h.mails id
  rw [h.settings] at hu
  rw [hf] at hm'
  obtain ⟨m, hm, rfl⟩ := Option.map_eq_some_iff.mp hm'
  have hholds := countsMail_iff.mp hcounts
  rcases hstep m hm with heq | ⟨key, -, heq⟩ | ⟨key, hkey, heq⟩
  · rw [heq] at hholds ⊢
    exact hordinary user_id u id m hu hm (countsMail_iff.mpr hholds)
  · rw [heq] at hholds
    cases hholds.2.1
  · rw [heq]
    exact (trashesMail_status hkey : m.status = .sent ∨ m.status = .draft)

theorem Effect.knownSenders (h : Effect d d' now stamp) (hsender : KnownSenders d) :
    KnownSenders d' := by
  intro id m' hm' hdeleted hpurged hstatus hsaved
  obtain ⟨f, hf, hstep⟩ := h.mails id
  rw [hf] at hm'
  obtain ⟨m, hm, rfl⟩ := Option.map_eq_some_iff.mp hm'
  rcases eq_or_ne (f m) m with heq | hne
  · rw [heq] at hdeleted hpurged hstatus hsaved ⊢
    exact hsender id m hm hdeleted hpurged hstatus hsaved
  · rw [(hstep m hm).kept.2.2.1]
    exact (hstep m hm).sender hne

theorem Effect.datedDrafts (h : Effect d d' now stamp) : datedDrafts d' = datedDrafts d := by
  ext id
  rw [mem_datedDrafts, mem_datedDrafts]
  obtain ⟨f, hf, hstep⟩ := h.mails id
  rcases hm : d.mail.mails.rows id with _ | m
  · rw [hf, hm]
    simp
  · obtain ⟨-, hstatus, -, -, hsent⟩ := (hstep m hm).kept
    rw [hf, hm]
    simp [hstatus, hsent]

/-- Nothing becomes late by a batch: what it trashes is new in the trash. -/
theorem Effect.late {before : Time} (h : Effect d d' now stamp) (hle : before ≤ stamp)
    (hlate : Late d' before) : Late d before := by
  obtain ⟨user_id, u, hu, hview⟩ := hlate
  rw [h.settings] at hu
  refine ⟨user_id, u, hu, ?_⟩
  rcases hview with ⟨id, r', hr', hcounts, hold⟩ | ⟨id, m', hm', hcounts, hold⟩
  · obtain ⟨f, hf, hstep⟩ := h.recipients id
    rw [hf] at hr'
    obtain ⟨r, hr, rfl⟩ := Option.map_eq_some_iff.mp hr'
    have hreceives := countsRecipient_iff.mp hcounts
    rcases hstep r hr with heq | ⟨key, -, heq⟩ | ⟨key, -, heq⟩
    · rw [heq] at hreceives hold
      refine Or.inl ⟨id, r, hr, countsRecipient_iff.mpr ⟨?_, hreceives.2⟩, hold⟩
      rw [← h.received]
      exact hreceives.1
    · rw [heq] at hreceives
      cases hreceives.2.1
    · rw [heq] at hold
      exact absurd hold (by
        rw [show (trashRecipient stamp r).deleted_at = some stamp from rfl, olderThan_stamp 30 hle]
        nofun)
  · obtain ⟨f, hf, hstep⟩ := h.mails id
    rw [hf] at hm'
    obtain ⟨m, hm, rfl⟩ := Option.map_eq_some_iff.mp hm'
    have hholds := countsMail_iff.mp hcounts
    rcases hstep m hm with heq | ⟨key, -, heq⟩ | ⟨key, -, heq⟩
    · rw [heq] at hholds hold
      exact Or.inr ⟨id, m, hm, countsMail_iff.mpr hholds, hold⟩
    · rw [heq] at hholds
      cases hholds.2.1
    · rw [heq] at hold
      exact absurd hold (by
        rw [show (retireMail stamp m).sender_deleted_at = some stamp from rfl,
          olderThan_stamp 30 hle]
        nofun)

/-! ## Runs of batches -/

/-- As long as something is late, the backlog shrinks with each batch. -/
theorem run_counts {limit n : Nat} (hordinary : OrdinaryTrash d) (hsender : KnownSenders d)
    (hdated : (datedDrafts d).card < limit) (h : RunBatches limit now n d d') :
    OrdinaryTrash d' ∧ KnownSenders d' ∧ (datedDrafts d').card < limit ∧
      (Late d' now → backlog d' + n ≤ backlog d) := by
  induction h with
  | none d => exact ⟨hordinary, hsender, hdated, fun _ => Nat.le_refl _⟩
  | @next n d d₁ d₂ hrun hbatch ih =>
    obtain ⟨hordinary', hsender', hdated', hcount⟩ := ih hordinary hsender hdated
    cases hbatch with
    | @run batch start stamp hle hstamp hselected =>
      have heffect := effect_apply hstamp d₁ batch
      refine ⟨heffect.ordinaryTrash hordinary', heffect.knownSenders hsender', ?_, fun hlate => ?_⟩
      · rw [heffect.datedDrafts]
        exact hdated'
      · have hbefore := heffect.late (Nat.le_trans hle hstamp) hlate
        have hless := batch_counts hordinary' hsender' hdated' hbefore hle hstamp hselected
        have hsum := hcount hbefore
        omega

theorem clears {limit : Nat} (hordinary : OrdinaryTrash d) (hsender : KnownSenders d)
    (hdated : (datedDrafts d).card < limit) : Clears d limit := by
  intro now
  refine ⟨backlog d + 1, fun n d' hn hrun hlate => ?_⟩
  have hsum := (run_counts hordinary hsender hdated hrun).2.2.2 hlate
  omega

/-- What is late in the trash is selected, what is selected is purged, and no view goes before its
retention is over, each under its own condition; and together they empty the trash of what is late. -/
theorem retention_covers_the_trash (d : Database) :
    (Covered d ↔ OrdinaryTrash d) ∧ (Purges d ↔ KnownSenders d) ∧ (Spared d ↔ OneRetention d) ∧
      ∀ limit, OrdinaryTrash d → KnownSenders d → (datedDrafts d).card < limit → Clears d limit :=
  ⟨covered_iff, purges_iff, spared_iff, fun _ => clears⟩

/-- Alice has trashed the mail that she sent. -/
def trashedDb : Database :=
  boxes { mail_messenger_service.sentDb with
    mails := mail_messenger_service.sentDb.mails.update (fun _ _ => true) (retireMail 9) }

theorem trashed_mails {m : Mail} (hm : trashedDb.mail.mails.rows id = some m) :
    m.status = .sent ∧ m.sender_user_id = some "alice" := by
  have hall : ∀ id ∈ trashedDb.mail.mails.keys, (trashedDb.mail.mails.rows id).all (fun m =>
      decide (m.status = .sent) && decide (m.sender_user_id = some "alice")) = true := by
    decide
  have hrow := hall id ((trashedDb.mail.mails.mem_keys id).mpr (by rw [hm]; rfl))
  rw [hm] at hrow
  simpa using hrow

theorem the_trash_of_alice_is_cleared : Clears trashedDb 500 := by
  refine (retention_covers_the_trash trashedDb).2.2.2 500 ?_ ?_ ?_
  · exact fun user_id u id m hu hm hcounts => Or.inl (trashed_mails hm).1
  · intro id m hm hdeleted hpurged hstatus hsaved
    rw [(trashed_mails hm).2]
    rfl
  · decide +kernel

/-- Alice has a mail that waits to be sent. -/
def scheduledDb : Database :=
  boxes { mail_messenger_service.draftDb with
    mails := mail_messenger_service.draftDb.mails.update (fun _ _ => true)
      (fun m => { m with status := .scheduled }) }

/-- The mails of the emptied mailbox of scheduled mails are cancelled, and retention selects none of
them. -/
theorem cancelled_mails_stay : ∃ d n, empty_mailbox scheduledDb mail_messenger_service.alice
    .scheduled ⟨1, false⟩ 9 = .ok (d, n) ∧ ¬ Covered d := by
  have hrow : ((empty_mailbox scheduledDb mail_messenger_service.alice .scheduled ⟨1, false⟩
      9).toOption.any (fun result => (result.1.mail.mails.rows (.mail 0)).any (fun m =>
        decide (result.1.mail.settings.users.rows "alice" =
          some ⟨"moa", "alice@moa.kr", .active⟩) &&
        decide (m.status = .cancelled) && written mail_messenger_service.alice m &&
        m.sender_purged_at.isNone && saved m && m.sender_deleted_at.isSome))) = true := by
    decide +kernel
  obtain ⟨⟨d, n⟩, hresult, h⟩ := (Option.any_eq_true _ _).mp hrow
  obtain ⟨m, hm, h⟩ := (Option.any_eq_true _ _).mp h
  simp only [Bool.and_eq_true, decide_eq_true_eq, Option.isNone_iff_eq_none] at h
  obtain ⟨⟨⟨⟨⟨hu, hstatus⟩, hwritten⟩, hpurged⟩, hsaved⟩, hdeleted⟩ := h
  refine ⟨d, n, Raise.ok_of_toOption hresult, fun hcovered => ?_⟩
  have hcounts : CountsMail d (asActor "alice" ⟨"moa", "alice@moa.kr", .active⟩) (.mail 0) m :=
    countsMail_iff.mpr ⟨hwritten, hpurged, hsaved, senderMailbox_trash.mpr hdeleted⟩
  rcases covered_iff.mp hcovered "alice" _ _ m hu hm hcounts with hsent | hdraft
  · exact nomatch hstatus.symm.trans hsent
  · exact nomatch hstatus.symm.trans hdraft

end moaworks.mailbox_settings

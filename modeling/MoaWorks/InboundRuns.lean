-- Exactly once from outside: in every run, each recipient of a message has one row, and
-- the recipients of a company share its mail. Companies that receive one message with
-- attachments are in each other's way.
import MoaWorks.InboundWrites

namespace moaworks.mail_inbound_operations

open mail_submission_operations (Bytes Disposition Error User)
open Raise (bind_ok require_ok)

variable {env : Environment} {w w' : World} {t u : Nat} {work : Work} {ids : NewIds}
  {db db' : Db} {files files' : Files} {key : Key} {digest : Digest} {user_id mail_id : String}
  {c : Commit}

/-! ## The law -/

/-- The rows of `mail_recipients` in which a user has a content, from whichever company. -/
def Db.received (db : Db) (content_sha256 : Digest) (user_id : String) : Finset String :=
  db.mail_recipients.select (fun _ row => decide (row.recipient_user_id = some user_id) &&
    decide (db.inbound.select (fun key inbound => decide (key.2 = content_sha256) &&
      decide (inbound.mail_message_id = some row.message_id))).Nonempty)

theorem mem_received {id : String} : id ∈ db.received digest user_id ↔
    ∃ row key, db.mail_recipients.rows id = some row ∧ row.recipient_user_id = some user_id ∧
      key.2 = digest ∧ db.mailOf key = some row.message_id := by
  rw [Db.received, Table.mem_select]
  simp only [Bool.and_eq_true, decide_eq_true_eq]
  simp only [Finset.Nonempty, Table.mem_select, Bool.and_eq_true, decide_eq_true_eq, Db.mailOf,
    Option.bind_eq_some_iff]
  constructor
  · rintro ⟨row, hrow, huser, key, inbound, hinbound, hkey, hmail⟩
    exact ⟨row, key, hrow, huser, hkey, inbound, hinbound, hmail⟩
  · rintro ⟨row, key, hrow, huser, hkey, inbound, hinbound, hmail⟩
    exact ⟨row, hrow, huser, key, inbound, hinbound, hkey, hmail⟩

/-- The rows of `mail_recipients` that a commit has inserted. -/
def Commit.inserted (c : Commit) : Finset String :=
  c.after.mail_recipients.keys \ c.before.mail_recipients.keys

def Commit.mails (c : Commit) : Finset String := c.after.mails.keys \ c.before.mails.keys

/-- The recipient has one row, on the one mail of the company, with its attachments. -/
structure Delivered (db : Db) (c : Commit) : Prop where
  received : ∃ id, db.received c.work.digest c.work.user_id = {id} ∧
    (c.result.duplicate = false → c.inserted = {id})
  mail : ∃ mail_id mail, db.mailOf c.work.key = some mail_id ∧ db.mails.rows mail_id = some mail ∧
    mail.company_id = c.work.company_id ∧
    Attached db c.work.digest mail_id c.work.request.parsed.attachments ∧
    (∀ id ∈ db.received c.work.digest c.work.user_id, ∃ row,
      db.mail_recipients.rows id = some row ∧ row.message_id = mail_id) ∧
    ∀ id ∈ c.mails, id = mail_id

/-- The same message for the same recipient. -/
def Commit.Repeats (c c' : Commit) : Prop :=
  c'.work.request.call.raw_message = c.work.request.call.raw_message ∧
    c'.work.user_id = c.work.user_id

/-- A failure that other companies have no part in. -/
def Benign (env : Environment) (failure : Call × Error) : Prop :=
  failure.2 = .failure ∨ failure.2 = noRecipient ∨
    parse_inbound_message env failure.1.raw_message = .error failure.2

structure Law (env : Environment) (w : World) : Prop where
  delivered : ∀ c ∈ w.commits, c.work.request.disposition ≠ .quarantine → Delivered w.db c
  repeated : History.Whenever (fun _ => True)
    (fun before c => c.result.duplicate = true ↔ ∃ c' ∈ before, c.Repeats c') w.commits
  untouched : ∀ c ∈ w.commits, c.result.duplicate = true → ∃ row,
    c.before.inbound.rows c.work.key = some row ∧ c.after = { c.before with
      inbound := c.before.inbound.set c.work.key { row with updated_at := c.work.now } }
  failures : ∀ failure ∈ w.failures, Benign env failure
  reports : ∀ report ∈ w.reports, report.2 = ∅

/-- No other message is stored under the digest. -/
def World.Unmistaken (w : World) (content_sha256 : Digest) (raw_message : Bytes) : Prop :=
  w.files.rows (relative content_sha256 "raw.eml") = none ∨
    w.files.rows (relative content_sha256 "raw.eml") = some raw_message

instance (w : World) (content_sha256 : Digest) (raw_message : Bytes) :
    Decidable (w.Unmistaken content_sha256 raw_message) :=
  inferInstanceAs (Decidable (_ ∨ _))

/-- No active user has a bounce address, no two messages have one digest, and no message
with attachments goes to a second company. -/
def Separate (env : Environment) (w : World) : Action → Prop
  | .feedback call => w.directory.receivers (Text.lower (Text.strip call.recipient_email)) = ∅ ∧
      w.Unmistaken (env.sha256 call.raw_message) call.raw_message
  | .spool t =>
    match w.sessions t with
    | .located work => w.Unmistaken work.digest work.request.call.raw_message
    | _ => True
  | .attach t =>
    match w.sessions t with
    | .held work => work.request.parsed.attachments ≠ [] → ∀ key ∈ w.db.inbound.keys,
        key.2 = work.digest → key.1 ≠ work.company_id → w.db.mailOf key = none
    | _ => True
  | _ => True

/-! ## The invariant -/

structure Base (env : Environment) (w : World) (work : Work) : Prop where
  parsed : Parsed env work.request
  placed : (w.directory.users.rows work.user_id).map User.company_id = some work.company_id
  stored : w.files.rows (relative work.digest "raw.eml") = some work.request.call.raw_message

/-- What a session can rely on, by its phase. -/
def Sound (env : Environment) (w : World) (t : Nat) : Session → Prop
  | .idle => True
  | .asked r => Parsed env r
  | .located work => Parsed env work.request ∧
      (w.directory.users.rows work.user_id).map User.company_id = some work.company_id
  | .spooled work => Base env w work
  | .held work => Base env w work ∧ w.rows.holder work.key = some t
  | .attached work => Base env w work ∧ w.rows.holder work.key = some t ∧
      w.db.known work.key work.user_id = false ∧ work.request.disposition ≠ .quarantine ∧
      w.db.mailOf work.key = none

/-- A stored attachment is the one that the stored message has at this index. -/
def FilesSound (env : Environment) (files : Files) : Prop :=
  ∀ digest index content, files.rows (relative digest (attachmentName index)) = some content →
    ∃ r attachment, Parsed env r ∧ r.parsed.content_sha256 = digest ∧
      files.rows (relative digest "raw.eml") = some r.call.raw_message ∧
      r.parsed.attachments[index]? = some attachment ∧ attachment.content = content

/-- What the tables know of a commit. -/
def Received (db : Db) (c : Commit) : Prop :=
  ∃ mail_id id row, db.mailOf c.work.key = some mail_id ∧ db.mail_recipients.rows id = some row ∧
    row.message_id = mail_id ∧ row.recipient_user_id = some c.work.user_id ∧
    Attached db c.work.digest mail_id c.work.request.parsed.attachments ∧
    (c.result.duplicate = false → c.inserted = {id}) ∧ ∀ id ∈ c.mails, id = mail_id

structure Invariant (env : Environment) (w : World) : Prop where
  wellFormed : WellFormed w.db
  names : ∀ digest index, w.db.taken (relative digest (attachmentName index)) = true →
    ∃ company_id mail_id, w.db.mailOf (company_id, digest) = some mail_id
  files : FilesSound env w.files
  sound : ∀ t, Sound env w t (w.sessions t)
  knows : ∀ key user_id, w.db.known key user_id = true →
    ∃ c ∈ w.commits, c.work.key = key ∧ c.work.user_id = user_id
  mailed : ∀ key mail_id, w.db.mailOf key = some mail_id →
    ∃ c ∈ w.commits, c.work.key = key ∧ c.work.request.disposition ≠ .quarantine
  traced : ∀ c ∈ w.commits, Base env w c.work ∧ w.db.known c.work.key c.work.user_id = true
  received : ∀ c ∈ w.commits, c.work.request.disposition ≠ .quarantine → Received w.db c
  repeated : History.Whenever (fun _ => True)
    (fun before c => c.result.duplicate = true ↔ ∃ c' ∈ before, c.Repeats c') w.commits
  untouched : ∀ c ∈ w.commits, c.result.duplicate = true → ∃ row,
    c.before.inbound.rows c.work.key = some row ∧ c.after = { c.before with
      inbound := c.before.inbound.set c.work.key { row with updated_at := c.work.now } }
  failures : ∀ failure ∈ w.failures, Benign env failure
  reports : ∀ report ∈ w.reports, report.2 = ∅

/-- One message has one digest, and is stored under it. -/
theorem Base.same {work' : Work} (h : Base env w work) (h' : Base env w work')
    (hdigest : work.digest = work'.digest) :
    work.request.parsed = work'.request.parsed ∧ work.request.disposition = work'.request.disposition ∧
      work.request.call.raw_message = work'.request.call.raw_message := by
  have hstored := h.stored
  rw [hdigest, h'.stored] at hstored
  have hraw : work.request.call.raw_message = work'.request.call.raw_message :=
    (Option.some.inj hstored).symm
  obtain ⟨hparsed, hdisposition⟩ := h.parsed.unique h'.parsed hraw
  exact ⟨hparsed, hdisposition, hraw⟩

/-- A user belongs to one company. -/
theorem Base.company {work' : Work} (h : Base env w work) (h' : Base env w work')
    (huser : work.user_id = work'.user_id) : work.company_id = work'.company_id := by
  have hplaced := h.placed
  rw [huser, h'.placed] at hplaced
  exact (Option.some.inj hplaced).symm

theorem Base.repeats_iff {c' : Commit} (h : Base env w c.work) (h' : Base env w c'.work) :
    c.Repeats c' ↔ c'.work.key = c.work.key ∧ c'.work.user_id = c.work.user_id := by
  constructor
  · rintro ⟨hraw, huser⟩
    have hdigest : c'.work.digest = c.work.digest := by
      unfold Work.digest
      rw [h'.parsed.content_sha256, h.parsed.content_sha256, hraw]
    refine ⟨?_, huser⟩
    unfold Work.key
    rw [h'.company h huser, hdigest]
  · rintro ⟨hkey, huser⟩
    exact ⟨(h'.same h (Prod.mk.inj hkey).2).2.2, huser⟩

/-! ## From the invariant to the law -/

theorem Invariant.delivered (hi : Invariant env w) (hc : c ∈ w.commits)
    (hd : c.work.request.disposition ≠ .quarantine) : Delivered w.db c := by
  obtain ⟨mail_id, id, row, hmail, hrow, hmessage, huser, hattached, hinserted, hmails⟩ :=
    hi.received c hc hd
  have hreceived : w.db.received c.work.digest c.work.user_id = {id} := by
    ext id'
    rw [Finset.mem_singleton, mem_received]
    constructor
    · rintro ⟨row', key, hrow', huser', hkey, hmail'⟩
      -- The row is on the mail of a company of the user, and there is one such company.
      obtain ⟨c', hc', hkey', hother⟩ := hi.knows key _
        (hi.wellFormed.lone key id' row' _ hrow' hmail' huser')
      have hcompany := (hi.traced c' hc').1.company (hi.traced c hc).1 hother
      have hsame : key = c.work.key := by
        rw [← hkey']
        refine Prod.ext hcompany ?_
        rw [hkey', hkey]
        rfl
      subst hsame
      exact hi.wellFormed.single c.work.key id' id row' row _ hrow' hrow hmail' (hmessage ▸ hmail)
        huser' huser
    · rintro rfl
      exact ⟨row, c.work.key, hrow, huser, rfl, hmessage ▸ hmail⟩
  obtain ⟨mail, hmailrow, hcompany⟩ := hi.wellFormed.mails c.work.key mail_id hmail
  refine ⟨⟨id, hreceived, hinserted⟩, mail_id, mail, hmail, hmailrow, hcompany, hattached, ?_, hmails⟩
  intro id' hid'
  rw [hreceived, Finset.mem_singleton] at hid'
  exact ⟨row, hid' ▸ hrow, hmessage⟩

theorem Invariant.law (hi : Invariant env w) : Law env w :=
  ⟨fun _ hc hd => hi.delivered hc hd, hi.repeated, hi.untouched, hi.failures, hi.reports⟩

/-! ## Steps that commit nothing -/

/-- A step of `t` takes no lock, no phase, no file and no company away. -/
structure Spares (t : Nat) (w w' : World) : Prop where
  sessions : ∀ u, u ≠ t → w'.sessions u = w.sessions u
  holder : ∀ u key, u ≠ t → w.rows.holder key = some u → w'.rows.holder key = some u
  files : Keeps w.files w'.files
  users : ∀ user_id company_id, (w.directory.users.rows user_id).map User.company_id = some company_id →
    (w'.directory.users.rows user_id).map User.company_id = some company_id

theorem Base.spared (h : Base env w work) (hs : Spares t w w') : Base env w' work :=
  ⟨h.parsed, hs.users _ _ h.placed, hs.files _ _ h.stored⟩

theorem Sound.spared {session : Session} (h : Sound env w u session) (hs : Spares t w w') (hne : u ≠ t)
    (hdb : ∀ key user_id, w.rows.holder key = some u →
      w'.db.mailOf key = w.db.mailOf key ∧ w'.db.known key user_id = w.db.known key user_id) :
    Sound env w' u session := by
  cases session with
  | idle => trivial
  | asked r => exact h
  | located work => exact ⟨h.1, hs.users _ _ h.2⟩
  | spooled work => exact Base.spared h hs
  | held work => exact ⟨h.1.spared hs, hs.holder u _ hne h.2⟩
  | attached work =>
    obtain ⟨hbase, hholder, hknown, hdisposition, hmail⟩ := h
    obtain ⟨hmailOf, hsame⟩ := hdb work.key work.user_id hholder
    exact ⟨hbase.spared hs, hs.holder u _ hne hholder, hsame.trans hknown, hdisposition,
      hmailOf.trans hmail⟩

/-- The rule for a step that commits nothing. -/
theorem Invariant.quiet (hi : Invariant env w) (hs : Spares t w w') (hdb : w'.db = w.db)
    (hcommits : w'.commits = w.commits) (hfiles : FilesSound env w'.files)
    (hfailures : ∀ failure ∈ w'.failures, Benign env failure)
    (hreports : ∀ report ∈ w'.reports, report.2 = ∅)
    (hsound : Sound env w' t (w'.sessions t)) : Invariant env w' := by
  have hsessions : ∀ u, Sound env w' u (w'.sessions u) := by
    intro u
    by_cases hut : u = t
    · subst hut
      exact hsound
    · rw [hs.sessions u hut]
      exact (hi.sound u).spared hs hut (fun _ _ _ => by rw [hdb]; exact ⟨rfl, rfl⟩)
  obtain ⟨hwf, hnames, _, _, hknows, hmailed, htraced, hreceived, hrepeated, huntouched, _, _⟩ := hi
  rw [← hdb] at hwf hnames hknows hmailed htraced hreceived
  rw [← hcommits] at hknows hmailed htraced hreceived hrepeated huntouched
  exact ⟨hwf, hnames, hfiles, hsessions, hknows, hmailed,
    fun c hc => ⟨(htraced c hc).1.spared hs, (htraced c hc).2⟩, hreceived, hrepeated, huntouched,
    hfailures, hreports⟩

/-- The rule for a step of no session. -/
theorem Invariant.administered (hi : Invariant env w) (hdb : w'.db = w.db)
    (hcommits : w'.commits = w.commits) (hsessions : w'.sessions = w.sessions)
    (hrows : w'.rows = w.rows) (hkeeps : Keeps w.files w'.files)
    (husers : ∀ user_id company_id,
      (w.directory.users.rows user_id).map User.company_id = some company_id →
      (w'.directory.users.rows user_id).map User.company_id = some company_id)
    (hfiles : FilesSound env w'.files) (hfailures : ∀ failure ∈ w'.failures, Benign env failure)
    (hreports : ∀ report ∈ w'.reports, report.2 = ∅) : Invariant env w' := by
  have hholder : ∀ u key, w.rows.holder key = some u → w'.rows.holder key = some u := by
    intro u key h
    rw [hrows, h]
  have hs : Spares 0 w w' := ⟨fun u _ => congrFun hsessions u, fun u key _ => hholder u key, hkeeps, husers⟩
  have hs1 : Spares 1 w w' := ⟨fun u _ => congrFun hsessions u, fun u key _ => hholder u key, hkeeps, husers⟩
  refine hi.quiet hs hdb hcommits hfiles hfailures hreports ?_
  -- Session 0 is spared as well, by a step of any other.
  rw [hsessions]
  exact (hi.sound 0).spared hs1 (by decide) (fun _ _ _ => by rw [hdb]; exact ⟨rfl, rfl⟩)

theorem spares_put (w : World) (t : Nat) (session : Session) : Spares t w (w.put t session) :=
  ⟨fun _ hne => if_neg hne, fun _ _ _ h => h, Keeps.refl _, fun _ _ h => h⟩

theorem spares_finish (w : World) (t : Nat) : Spares t w (w.finish t) :=
  ⟨fun _ hne => if_neg hne, fun _ _ hne h => Locks.holder_release.2 ⟨h, hne⟩, Keeps.refl _,
    fun _ _ h => h⟩

theorem put_keeps {session : Session} (hi : Invariant env w)
    (hsound : Sound env (w.put t session) t session) : Invariant env (w.put t session) := by
  have hself : (w.put t session).sessions t = session := if_pos rfl
  refine hi.quiet (spares_put w t session) rfl rfl hi.files hi.failures hi.reports ?_
  rw [hself]
  exact hsound

theorem fail_keeps {call : Call} {error : Error} (hi : Invariant env w) (h : Benign env (call, error)) :
    Invariant env (w.fail t call error) := by
  have hself : (w.fail t call error).sessions t = .idle := if_pos rfl
  have hs := spares_finish w t
  refine hi.quiet ⟨hs.sessions, hs.holder, hs.files, hs.users⟩ rfl rfl hi.files ?_ hi.reports ?_
  · intro failure hfailure
    rcases List.mem_append.1 hfailure with hold | hnew
    · exact hi.failures failure hold
    · rw [List.mem_singleton.1 hnew]
      exact h
  · rw [hself]
    trivial

theorem parse_error {call : Call} {error : Error} (h : request env call = .error error) :
    parse_inbound_message env call.raw_message = .error error := by
  unfold request at h
  cases hparse : parse_inbound_message env call.raw_message with
  | error e =>
    rw [hparse] at h
    cases h
    rfl
  | ok parsed =>
    rw [hparse] at h
    cases h

theorem ask_keeps {call : Call} (hi : Invariant env w) (h : ask env w t call = some w') :
    Invariant env w' := by
  unfold ask at h
  split at h
  · split_ifs at h
    split at h
    · next error herror =>
      cases h
      exact fail_keeps hi (Or.inr (Or.inr (parse_error herror)))
    · next r hrequest =>
      cases h
      exact put_keeps hi (parsed_of_request hrequest)
  · cases h

theorem locate_keeps {pick : Option String} (hi : Invariant env w) (h : locate w t pick = some w') :
    Invariant env w' := by
  unfold locate at h
  split at h
  · next r hsession =>
    have hsound := hi.sound t
    rw [hsession] at hsound
    cases pick with
    | some user_id =>
      dsimp only at h
      split_ifs at h
      rw [Option.map_eq_some_iff] at h
      obtain ⟨user, huser, rfl⟩ := h
      refine put_keeps hi ⟨hsound, ?_⟩
      exact Option.map_eq_some_iff.2 ⟨user, huser, rfl⟩
    | none =>
      dsimp only at h
      split_ifs at h
      cases h
      exact fail_keeps hi (Or.inr (Or.inl rfl))
  · cases h

/-- A file that is no attachment leaves the attachments sound. -/
theorem FilesSound.keeps (hs : FilesSound env files) (hk : Keeps files files')
    (hsame : ∀ digest index, files'.rows (relative digest (attachmentName index)) =
      files.rows (relative digest (attachmentName index))) : FilesSound env files' := by
  intro digest index content hcontent
  rw [hsame] at hcontent
  obtain ⟨r, attachment, hparsed, hdigest, hraw, hrest⟩ := hs digest index content hcontent
  exact ⟨r, attachment, hparsed, hdigest, hk _ _ hraw, hrest⟩

theorem World.Unmistaken.not_error {raw_message : Bytes} {error : Error}
    (h : w.Unmistaken digest raw_message) : store_raw w.files digest raw_message ≠ .error error := by
  intro herror
  obtain ⟨stored, hstored, hne⟩ := store_error herror
  rcases h with hnone | hsome
  · rw [hstored] at hnone
    cases hnone
  · rw [hstored] at hsome
    exact hne (Option.some.inj hsome)

/-- What `store_raw` writes is no attachment. -/
theorem FilesSound.store_raw {raw_message : Bytes} (hs : FilesSound env files)
    (h : store_raw files digest raw_message = .ok files') : FilesSound env files' := by
  obtain ⟨hkeeps, _, hothers⟩ := store_ok h
  refine hs.keeps hkeeps (fun digest index => hothers _ ?_)
  intro hpath
  exact attachmentName_ne_raw index (relative_injective hpath).2

theorem feedback_keeps {call : Call} (hi : Invariant env w) (hok : Separate env w (.feedback call))
    (h : feedback env w call = some w') : Invariant env w' := by
  unfold feedback at h
  rw [Option.ite_none_right_eq_some] at h
  obtain ⟨_, h⟩ := h
  obtain ⟨hnobody, hunmistaken⟩ := hok
  split at h
  · next error herror => exact (hunmistaken.not_error herror).elim
  · next files hstore =>
    cases h
    refine hi.administered rfl rfl rfl rfl (store_ok hstore).1 (fun _ _ h => h)
      (hi.files.store_raw hstore) hi.failures ?_
    intro report hreport
    rcases List.mem_append.1 hreport with hold | hnew
    · exact hi.reports report hold
    · rw [List.mem_singleton.1 hnew]
      exact hnobody

theorem spool_keeps (hi : Invariant env w) (hok : Separate env w (.spool t)) (h : spool w t = some w') :
    Invariant env w' := by
  unfold spool at h
  split at h
  · next work hsession =>
    have hsound := hi.sound t
    rw [hsession] at hsound
    simp only [Separate, hsession] at hok
    split at h
    · next error herror => exact hok.not_error herror |>.elim
    · next files hstore =>
      cases h
      obtain ⟨hkeeps, hself, _⟩ := store_ok hstore
      have hp := spares_put w t (.spooled work)
      have hput : ({ w.put t (.spooled work) with files := files } : World).sessions t =
          .spooled work := if_pos rfl
      refine hi.quiet ⟨hp.sessions, hp.holder, hkeeps, hp.users⟩ rfl rfl (hi.files.store_raw hstore)
        hi.failures hi.reports ?_
      rw [hput]
      exact ⟨hsound.1, hsound.2, hself⟩
  · cases h

theorem upsert_keeps (hi : Invariant env w) (h : upsert w t = some w') : Invariant env w' := by
  unfold upsert at h
  split at h
  · next work hsession =>
    have hsound := hi.sound t
    rw [hsession] at hsound
    split_ifs at h with hopen
    cases h
    have hself : ({ w.put t (.held work) with rows := w.rows.take t work.key } : World).sessions t =
        .held work := if_pos rfl
    refine hi.quiet ⟨fun _ hne => if_neg hne, ?_, Keeps.refl _, fun _ _ h => h⟩ rfl rfl hi.files
      hi.failures hi.reports ?_
    · intro u key hne hholder
      exact Locks.holder_take_of_open hopen hholder hne
    · rw [hself]
      exact ⟨⟨hsound.parsed, hsound.placed, hsound.stored⟩, Locks.holder_take_self _ _ _⟩
  · cases h

/-- The loop over the attachments of a stored message, when no other row has their names. -/
theorem insertAttachments_ok {r : Request} {rest : List InboundAttachment} {index : Nat}
    (hs : FilesSound env files) (hparsed : Parsed env r) (hdigest : r.parsed.content_sha256 = digest)
    (hraw : files.rows (relative digest "raw.eml") = some r.call.raw_message)
    (hfree : r.parsed.attachments ≠ [] → ∀ index, db.taken (relative digest (attachmentName index)) = false)
    (hrest : r.parsed.attachments.drop index = rest) :
    ∃ files', insertAttachments db digest rest index files = (files', .ok ()) ∧
      Keeps files files' ∧ FilesSound env files' := by
  induction rest generalizing index files with
  | nil => exact ⟨files, rfl, Keeps.refl files, hs⟩
  | cons attachment rest ih =>
    have hat : r.parsed.attachments[index]? = some attachment := by
      rw [← List.head?_drop, hrest]
      rfl
    have hfree' := hfree (fun hnil => by simp [hnil] at hat)
    -- What is stored under the name already is this attachment.
    cases hstore : store_attachment files digest index attachment.content with
    | error error =>
      exfalso
      obtain ⟨stored, hstored, hne⟩ := store_error hstore
      obtain ⟨r', attachment', hparsed', _, hraw', hat', hcontent⟩ := hs digest index stored hstored
      rw [hraw] at hraw'
      rw [(hparsed'.unique hparsed (Option.some.inj hraw').symm).1, hat] at hat'
      cases hat'
      exact hne hcontent.symm
    | ok next =>
      obtain ⟨hkeeps, hself, hothers⟩ := store_ok hstore
      have hnext : FilesSound env next := by
        intro digest' index' content hcontent
        by_cases hpath : relative digest' (attachmentName index') =
            relative digest (attachmentName index)
        · obtain ⟨hd, hname⟩ := relative_injective hpath
          have hindex := attachmentName_injective hname
          subst hd hindex
          rw [hself] at hcontent
          exact ⟨r, attachment, hparsed, hdigest, hkeeps _ _ hraw, hat, Option.some.inj hcontent⟩
        · rw [hothers _ hpath] at hcontent
          obtain ⟨r', attachment', hparsed', hdigest', hraw', hrest'⟩ :=
            hs digest' index' content hcontent
          exact ⟨r', attachment', hparsed', hdigest', hkeeps _ _ hraw', hrest'⟩
      obtain ⟨files', hloop, hkeeps', hs'⟩ := ih hnext (hkeeps _ _ hraw) (by
        rw [← List.tail_drop, hrest]
        rfl)
      refine ⟨files', ?_, hkeeps.trans hkeeps', hs'⟩
      simp only [insertAttachments, hstore, hfree', Bool.false_eq_true, ↓reduceIte]
      exact hloop

theorem attach_keeps (hi : Invariant env w) (hok : Separate env w (.attach t))
    (h : attach w t = some w') : Invariant env w' := by
  unfold attach at h
  split at h
  · next work hsession =>
    have hsound := hi.sound t
    rw [hsession] at hsound
    simp only [Separate, hsession] at hok
    obtain ⟨hbase, hholder⟩ := hsound
    rw [Option.ite_none_right_eq_some] at h
    obtain ⟨⟨hknown, hdisposition, hnone, _⟩, h⟩ := h
    -- A name that is taken would be that of the mail of another company.
    have hfree : work.request.parsed.attachments ≠ [] →
        ∀ index, w.db.taken (relative work.digest (attachmentName index)) = false := by
      intro hsome index
      by_contra htaken
      rw [Bool.not_eq_false] at htaken
      obtain ⟨company_id, mail_id, hmail⟩ := hi.names work.digest index htaken
      by_cases hcompany : company_id = work.company_id
      · subst hcompany
        have hmail' : w.db.mailOf work.key = some mail_id := hmail
        rw [hnone] at hmail'
        cases hmail'
      · have hin : (company_id, work.digest) ∈ w.db.inbound.keys := by
          rw [w.db.inbound.mem_keys]
          unfold Db.mailOf at hmail
          obtain ⟨row, hrow, _⟩ := Option.bind_eq_some_iff.1 hmail
          exact Option.isSome_of_eq_some hrow
        have hother := hok hsome _ hin rfl hcompany
        rw [hmail] at hother
        cases hother
    have hdigest : work.request.parsed.content_sha256 = work.digest := rfl
    obtain ⟨files, hloop, hkeeps, hfiles⟩ := insertAttachments_ok hi.files hbase.parsed hdigest
      hbase.stored hfree List.drop_zero
    rw [hloop] at h
    cases h
    have hself : ({ w.put t (.attached work) with
        files := files
        contents := if work.request.parsed.attachments = [] then w.contents
          else w.contents.take t work.digest } : World).sessions t = .attached work := if_pos rfl
    refine hi.quiet ⟨fun _ hne => if_neg hne, fun _ _ _ h => h, hkeeps, fun _ _ h => h⟩ rfl rfl hfiles
      hi.failures hi.reports ?_
    rw [hself]
    exact ⟨⟨hbase.parsed, hbase.placed, hkeeps _ _ hbase.stored⟩, hholder, hknown, hdisposition, hnone⟩
  · cases h

/-! ## Commits -/

/-- What a commit of `work` does to the tables, as the other sessions and the commits
before it see it. -/
structure Effect (db db' : Db) (work : Work) : Prop where
  wellFormed : WellFormed db'
  others : ∀ key, key ≠ work.key → db'.mailOf key = db.mailOf key
  mail : ∀ mail_id, db.mailOf work.key = some mail_id → db'.mailOf work.key = some mail_id
  new : ∀ mail_id, db'.mailOf work.key = some mail_id →
    db.mailOf work.key = some mail_id ∨ work.request.disposition ≠ .quarantine
  known : ∀ key user_id, db'.known key user_id = true ↔
    (key = work.key ∧ user_id = work.user_id) ∨ db.known key user_id = true
  rows : ∀ id row, db.mail_recipients.rows id = some row → db'.mail_recipients.rows id = some row
  attached : ∀ key mail_id attachments, db.mailOf key = some mail_id →
    Attached db key.2 mail_id attachments → Attached db' key.2 mail_id attachments
  names : ∀ digest index, db'.taken (relative digest (attachmentName index)) = true →
    db.taken (relative digest (attachmentName index)) = true ∨
      (digest = work.digest ∧ ∃ mail_id, db'.mailOf work.key = some mail_id)

theorem Effect.mailOf (he : Effect db db' work) (h : db.mailOf key = some mail_id) :
    db'.mailOf key = some mail_id := by
  by_cases hkey : key = work.key
  · subst hkey
    exact he.mail mail_id h
  · rw [he.others key hkey, h]

theorem Received.after (h : Received db c) (he : Effect db db' work) : Received db' c := by
  obtain ⟨mail_id, id, row, hmail, hrow, hmessage, huser, hattached, hrest⟩ := h
  have hkept : Attached db' c.work.digest mail_id c.work.request.parsed.attachments :=
    he.attached c.work.key mail_id _ hmail hattached
  exact ⟨mail_id, id, row, he.mailOf hmail, he.rows id row hrow, hmessage, huser, hkept, hrest⟩

theorem taken_iff {storage_key : String} : db.taken storage_key = true ↔
    ∃ id row, db.attachments.rows id = some row ∧ row.storage_key = some storage_key := by
  rw [Db.taken, decide_eq_true_eq]
  simp only [Finset.Nonempty, Table.mem_select, decide_eq_true_eq]

theorem NewIds.Fresh.newInbound (hf : ids.Fresh db work) : NewInbound db ids.inbound := hf.inbound

theorem effect_touch {id : String} (hw : WellFormed db) (hf : NewInbound db id)
    (h : db.known work.key work.user_id = true) : Effect db (touch db work id) work where
  wellFormed := hw.touch hf h
  others _ _ := mailOf_touch
  mail _ hmail := mailOf_touch.trans hmail
  new _ hmail := Or.inl (mailOf_touch.symm.trans hmail)
  known key user_id := by
    rw [known_touch h]
    constructor
    · exact Or.inr
    · rintro (⟨rfl, rfl⟩ | hold)
      · exact h
      · exact hold
  rows _ _ hrow := hrow
  attached _ _ _ _ hattached := hattached
  names _ _ htaken := Or.inl htaken

theorem effect_quarantine {id : String} (hw : WellFormed db) (hf : NewInbound db id) :
    Effect db (quarantine db work id) work where
  wellFormed := hw.quarantine hf
  others _ _ := mailOf_quarantine
  mail _ hmail := mailOf_quarantine.trans hmail
  new _ hmail := Or.inl (mailOf_quarantine.symm.trans hmail)
  known _ _ := known_quarantine hw hf
  rows _ _ hrow := hrow
  attached _ _ _ _ hattached := hattached
  names _ _ htaken := Or.inl htaken

/-- A row that is there is not the one with the new id. -/
theorem row_deliver_of_old {message_id id : String} {row : MailRecipient}
    (hr : ids.recipient ∉ db.mail_recipients.keys) (hrow : db.mail_recipients.rows id = some row) :
    (deliver db work ids message_id).mail_recipients.rows id = some row := by
  rw [mail_recipients_deliver, Table.rows_set_ne]
  · exact hrow
  · rintro rfl
    exact hr ((db.mail_recipients.mem_keys _).2 (Option.isSome_of_eq_some hrow))

/-- A further recipient of the company. -/
theorem effect_deliver {message_id : String} (hw : WellFormed db) (hf : ids.Fresh db work)
    (hd : work.request.disposition ≠ .quarantine) (hmail : db.mailOf work.key = some message_id)
    (hunknown : db.known work.key work.user_id = false) :
    Effect db (deliver db work ids message_id) work where
  wellFormed := hw.deliver hf.newInbound (open_mailOf hw hmail hunknown)
  others _ hkey := by rw [mailOf_deliver, if_neg hkey]
  mail mail_id h := by rw [mailOf_deliver, if_pos rfl, ← h, hmail]
  new _ _ := Or.inr hd
  known _ _ := known_deliver hw hf.newInbound
  rows _ _ := row_deliver_of_old hf.recipient
  attached _ _ _ _ hattached := hattached
  names _ _ htaken := Or.inl htaken

/-- The first recipient of the company. -/
theorem effect_storeMail (hw : WellFormed db) (hf : ids.Fresh db work)
    (hd : work.request.disposition ≠ .quarantine) (hnone : db.mailOf work.key = none)
    (hunknown : db.known work.key work.user_id = false) :
    Effect db (deliver (storeMail db work ids) work ids ids.mail) work where
  wellFormed := (hw.storeMail hf).deliver hf.inbound (open_storeMail hw hf hnone hunknown)
  others _ hkey := by
    rw [mailOf_deliver, if_neg hkey]
    rfl
  mail mail_id h := by
    rw [hnone] at h
    cases h
  new _ _ := Or.inr hd
  known _ _ := known_deliver (hw.storeMail hf) hf.inbound
  rows _ _ := row_deliver_of_old hf.recipient
  attached key mail_id _ hmail hattached := by
    obtain ⟨mail, hrow, _⟩ := hw.mails key mail_id hmail
    exact hattached.storeMail hf (new_mail hf (Option.isSome_of_eq_some hrow))
  names digest index htaken := by
    obtain ⟨id, row, hrow, hkey⟩ := taken_iff.1 htaken
    rcases attachment_of_storeMail hf hrow with ⟨_, _, _, _, rfl⟩ | ⟨_, hold⟩
    · right
      exact ⟨(relative_injective (Option.some.inj hkey)).1.symm, ids.mail, by
        rw [mailOf_deliver, if_pos rfl]⟩
    · exact Or.inl (taken_iff.2 ⟨id, row, hold, hkey⟩)

/-- The rule for a commit, with the lock of the row of company and content. -/
theorem Invariant.committed {id : String} {duplicate : Bool} (hi : Invariant env w)
    (hbase : Base env w work) (hholder : w.rows.holder work.key = some t)
    (he : Effect w.db db work) (hknown : duplicate = w.db.known work.key work.user_id)
    (huntouched : duplicate = true → ∃ row, w.db.inbound.rows work.key = some row ∧
      db = { w.db with inbound := w.db.inbound.set work.key { row with updated_at := work.now } })
    (hreceived : work.request.disposition ≠ .quarantine → Received db
      ⟨work, ⟨(returned w.db work id).id, work.request.disposition, duplicate⟩, w.db, db⟩) :
    Invariant env (close w t work id duplicate db) := by
  have hs : Spares t w (close w t work id duplicate db) := by
    have hf := spares_finish w t
    exact ⟨hf.sessions, hf.holder, hf.files, hf.users⟩
  have hself : (close w t work id duplicate db).sessions t = .idle := if_pos rfl
  have hmem : ∀ {c}, c ∈ (close w t work id duplicate db).commits → c ∈ w.commits ∨
      c = ⟨work, ⟨(returned w.db work id).id, work.request.disposition, duplicate⟩, w.db, db⟩ := by
    intro c hc
    rcases List.mem_append.1 hc with hold | hnew
    · exact Or.inl hold
    · exact Or.inr (List.mem_singleton.1 hnew)
  have hnew : (⟨work, ⟨(returned w.db work id).id, work.request.disposition, duplicate⟩, w.db, db⟩ :
      Commit) ∈ (close w t work id duplicate db).commits := by
    exact List.mem_append_right _ List.mem_cons_self
  have hold : ∀ {c}, c ∈ w.commits → c ∈ (close w t work id duplicate db).commits :=
    fun hc => List.mem_append_left _ hc
  constructor
  case wellFormed => exact he.wellFormed
  case names =>
    intro digest index htaken
    rcases he.names digest index htaken with hbefore | ⟨rfl, mail_id, hmail⟩
    · obtain ⟨company_id, mail_id, hmail⟩ := hi.names digest index hbefore
      exact ⟨company_id, mail_id, he.mailOf hmail⟩
    · exact ⟨work.company_id, mail_id, hmail⟩
  case files => exact hi.files
  case sound =>
    intro u
    by_cases hut : u = t
    · subst hut
      rw [hself]
      trivial
    · rw [hs.sessions u hut]
      refine (hi.sound u).spared hs hut (fun key user_id hother => ?_)
      -- The row of another session is not the row of this one.
      have hne : key ≠ work.key := by
        rintro rfl
        rw [hholder] at hother
        exact hut (Option.some.inj hother).symm
      refine ⟨he.others key hne, Bool.eq_iff_iff.2 ?_⟩
      change db.known key user_id = true ↔ _
      rw [he.known key user_id]
      simp [hne]
  case knows =>
    intro key user_id hknows
    rcases (he.known key user_id).1 hknows with ⟨rfl, rfl⟩ | hbefore
    · exact ⟨_, hnew, rfl, rfl⟩
    · obtain ⟨c, hc, hrest⟩ := hi.knows key user_id hbefore
      exact ⟨c, hold hc, hrest⟩
  case mailed =>
    intro key mail_id hmail
    have hbefore : w.db.mailOf key = some mail_id →
        ∃ c ∈ (close w t work id duplicate db).commits, c.work.key = key ∧
          c.work.request.disposition ≠ .quarantine := by
      intro hmail
      obtain ⟨c, hc, hrest⟩ := hi.mailed key mail_id hmail
      exact ⟨c, hold hc, hrest⟩
    by_cases hkey : key = work.key
    · subst hkey
      rcases he.new mail_id hmail with h | hd
      · exact hbefore h
      · exact ⟨_, hnew, rfl, hd⟩
    · exact hbefore ((he.others key hkey).symm.trans hmail)
  case traced =>
    intro c hc
    rcases hmem hc with hc | rfl
    · obtain ⟨hb, hk⟩ := hi.traced c hc
      exact ⟨hb.spared hs, (he.known _ _).2 (Or.inr hk)⟩
    · exact ⟨hbase.spared hs, (he.known _ _).2 (Or.inl ⟨rfl, rfl⟩)⟩
  case received =>
    intro c hc hd
    rcases hmem hc with hc | rfl
    · exact (hi.received c hc hd).after he
    · exact hreceived hd
  case repeated =>
    refine History.whenever_snoc.2 ⟨hi.repeated, fun _ => ?_⟩
    dsimp only
    rw [hknown]
    constructor
    · intro hk
      obtain ⟨c, hc, hkey, huser⟩ := hi.knows _ _ hk
      exact ⟨c, hc, (Base.repeats_iff hbase (hi.traced c hc).1).2 ⟨hkey, huser⟩⟩
    · rintro ⟨c, hc, hrepeats⟩
      obtain ⟨hkey, huser⟩ := (Base.repeats_iff hbase (hi.traced c hc).1).1 hrepeats
      have hk := (hi.traced c hc).2
      dsimp only at hkey huser
      rw [hkey, huser] at hk
      exact hk
  case untouched =>
    intro c hc hd
    rcases hmem hc with hc | rfl
    · exact hi.untouched c hc hd
    · exact huntouched hd
  case failures => exact hi.failures
  case reports => exact hi.reports

theorem inserted_deliver {message_id : String} (hr : ids.recipient ∉ db.mail_recipients.keys) :
    (deliver db work ids message_id).mail_recipients.keys \ db.mail_recipients.keys =
      {ids.recipient} := by
  have hkeys : (deliver db work ids message_id).mail_recipients.keys =
      insert ids.recipient db.mail_recipients.keys := rfl
  rw [hkeys]
  exact Finset.insert_sdiff_cancel hr

theorem commit_keeps (hi : Invariant env w) (h : commit w t ids = some w') : Invariant env w' := by
  have hsound := hi.sound t
  unfold commit at h
  split at h
  · next work hsession =>
    rw [hsession] at hsound
    obtain ⟨hbase, hholder⟩ := hsound
    split_ifs at h with hf hknown hd
    · -- The recipient has the message already.
      cases h
      refine hi.committed hbase hholder (effect_touch hi.wellFormed hf.newInbound hknown) hknown.symm
        (fun _ => ?_) (fun hd => ?_)
      · obtain ⟨row, hrow, _⟩ := row_of_known hknown
        exact ⟨row, hrow, touch_eq hrow⟩
      · obtain ⟨c, hc, hkey, huser⟩ := hi.knows _ _ hknown
        obtain ⟨hparsed, hdisposition, _⟩ := hbase.same (hi.traced c hc).1 (Prod.mk.inj hkey).2.symm
        obtain ⟨mail_id, id, row, hmail, hrow, hmessage, hrecipient, hattached, _, _⟩ :=
          hi.received c hc (hdisposition ▸ hd)
        rw [hkey] at hmail
        rw [← hparsed] at hattached
        rw [huser] at hrecipient
        have hdigest : c.work.digest = work.digest := (Prod.mk.inj hkey).2
        rw [hdigest] at hattached
        refine ⟨mail_id, id, row, mailOf_touch.trans hmail, hrow, hmessage, hrecipient, hattached,
          fun hfalse => (by cases hfalse), fun id hid => ?_⟩
        simp [Commit.mails, touch] at hid
    · cases h
      exact hi.committed hbase hholder (effect_quarantine hi.wellFormed hf.newInbound)
        (by simp [hknown]) (fun hfalse => (by cases hfalse)) (fun hne => absurd hd hne)
    · -- A further recipient of the company.
      rw [Bool.not_eq_true] at hknown
      rw [Option.map_eq_some_iff] at h
      obtain ⟨message_id, hmail, rfl⟩ := h
      refine hi.committed hbase hholder (effect_deliver hi.wellFormed hf hd hmail hknown) hknown.symm
        (fun hfalse => (by cases hfalse)) (fun _ => ?_)
      obtain ⟨c, hc, hkey, hdc⟩ := hi.mailed _ _ hmail
      have hdigest : c.work.digest = work.digest := (Prod.mk.inj hkey).2
      obtain ⟨hparsed, _, _⟩ := hbase.same (hi.traced c hc).1 hdigest.symm
      obtain ⟨mail_id, _, _, hmail', _, _, _, hattached, _, _⟩ := hi.received c hc hdc
      rw [hkey, hmail] at hmail'
      cases hmail'
      rw [← hparsed, hdigest] at hattached
      refine ⟨message_id, ids.recipient, newRecipient work message_id, ?_,
        Table.rows_set_self _ _ _, rfl, rfl, hattached, fun _ => inserted_deliver hf.recipient,
        fun id hid => ?_⟩
      · rw [mailOf_deliver, if_pos rfl]
      · simp [Commit.mails, deliver] at hid
  · next work hsession =>
    rw [hsession] at hsound
    obtain ⟨hbase, hholder, hknown, hd, hnone⟩ := hsound
    split_ifs at h with hf
    cases h
    refine hi.committed hbase hholder (effect_storeMail hi.wellFormed hf hd hnone hknown)
      hknown.symm (fun hfalse => (by cases hfalse)) (fun _ => ?_)
    refine ⟨ids.mail, ids.recipient, newRecipient work ids.mail, ?_, Table.rows_set_self _ _ _, rfl,
      rfl, attached_storeMail hi.wellFormed hf, fun _ => inserted_deliver hf.recipient, fun id hid => ?_⟩
    · rw [mailOf_deliver, if_pos rfl]
    · have hmails : (deliver (storeMail w.db work ids) work ids ids.mail).mails.keys =
          insert ids.mail w.db.mails.keys := rfl
      simp only [Commit.mails, hmails, Finset.mem_sdiff, Finset.mem_insert] at hid
      exact hid.1.resolve_right hid.2
  · cases h

/-! ## The law -/

theorem start_invariant (h : Start w) : Invariant env w := by
  have hinbound : ∀ key, w.db.inbound.rows key = none := by
    intro key
    rw [h.inbound]
    rfl
  have hmail : ∀ key, w.db.mailOf key = none := by
    intro key
    rw [Db.mailOf, hinbound]
    rfl
  have hknown : ∀ key user_id, w.db.known key user_id = false := by
    intro key user_id
    rw [Db.known, hinbound]
    rfl
  constructor
  case wellFormed =>
    constructor
    case ids => simp [hinbound]
    case owned => simp [h.inbound_recipients]
    case recipients => exact h.recipients
    case attachments => exact h.attachments
    all_goals simp [hmail]
  case files =>
    intro digest index content hcontent
    rw [h.files] at hcontent
    cases hcontent
  case sound =>
    intro t
    rw [h.quiet t]
    trivial
  case repeated =>
    rw [h.commits]
    exact History.whenever_nil _ _
  all_goals simp [h.names, hknown, hmail, h.commits, h.failures, h.reports]

theorem step_keeps {a : Action} (hi : Invariant env w) (hok : Separate env w a)
    (h : step env w a = some w') : Invariant env w' := by
  cases a with
  | ask t call => exact ask_keeps hi h
  | feedback call => exact feedback_keeps hi hok h
  | locate t pick => exact locate_keeps hi h
  | spool t => exact spool_keeps hi hok h
  | upsert t => exact upsert_keeps hi h
  | attach t => exact attach_keeps hi hok h
  | commit t ids => exact commit_keeps hi h
  | abort t =>
    simp only [step, abort, Option.map_eq_some_iff] at h
    obtain ⟨call, _, rfl⟩ := h
    exact fail_keeps hi (Or.inl rfl)
  | administer directory =>
    simp only [step, Option.ite_none_right_eq_some, Option.some.injEq] at h
    obtain ⟨hgrows, rfl⟩ := h
    refine hi.administered rfl rfl rfl rfl (Keeps.refl _) (fun user_id company_id huser => ?_) hi.files
      hi.failures hi.reports
    rw [← huser]
    apply hgrows
    obtain ⟨user, hrow, _⟩ := Option.map_eq_some_iff.1 huser
    exact (w.directory.users.mem_keys user_id).2 (Option.isSome_of_eq_some hrow)

/-- Inbound mail is exactly once, and companies do not touch each other, in every run in
which no message with attachments goes to a second company. -/
theorem inbound_exactly_once (env : Environment) (w : World)
    (h : (machine env).Reach (Separate env) w) : Law env w :=
  (h.invariant (fun _ hstart => start_invariant hstart)
    (fun _ _ _ _ hi hok hstep => step_keeps hi hok hstep)).law

/-! ## Two runs -/

instance (env : Environment) (w : World) (a : Action) : Decidable (Separate env w a) := by
  unfold Separate
  cases a with
  | spool t =>
    dsimp only
    cases w.sessions t <;> exact inferInstance
  | attach t =>
    dsimp only
    cases w.sessions t <;> exact inferInstance
  | _ => exact inferInstance

/-- A mailing with one attachment. -/
def mailing : Bytes :=
  ("Content-Type: multipart/mixed; boundary=b\n\n--b\n\nhi\n--b\n" ++
    "Content-Disposition: attachment\n\nx\n--b--\n").toList.map (fun c => UInt8.ofNat c.toNat)

/-- The parser and the hash, on the mailing. -/
def sampleEnvironment : Environment where
  parse _ := .ok ⟨"", "", "", "", "hi", "", [], "", "", "", [("", "text/plain", [120])]⟩
  sha256 _ := ⟨"f5fb79f1d3a494a50489215ffa0c7eb065f99869dcd0a28f4d54fa1b5ab22a8e", by decide⟩

/-- Ana and Bo work in one company, and Zoe in another. -/
def sampleWorld : World where
  directory := {
    users := ((Table.empty.set "ana" ⟨"first", "ana@first.test", .active⟩).set
      "bo" ⟨"first", "bo@first.test", .active⟩).set "zoe" ⟨"second", "zoe@second.test", .active⟩
    domains := (Table.empty.set "first" "first.test").set "second" "second.test" }
  db := {
    inbound := Table.empty
    inbound_recipients := Table.empty
    mails := Table.empty
    attachments := Table.empty
    mail_recipients := Table.empty }
  files := Table.empty
  rows := Locks.free
  contents := Locks.free
  sessions := fun _ => .idle
  commits := []
  failures := []
  reports := []

theorem start_sampleWorld : (machine sampleEnvironment).Start sampleWorld where
  inbound := rfl
  inbound_recipients := rfl
  recipients _ _ h := by cases h
  attachments _ _ h := by cases h
  names _ _ := Bool.eq_false_iff.2 (fun h => by
    obtain ⟨_, _, hrow, _⟩ := taken_iff.1 h
    cases hrow)
  files _ _ := rfl
  quiet _ := rfl
  commits := rfl
  failures := rfl
  reports := rfl

def mailingFor (recipient_email : String) (now : Time) : Call :=
  ⟨"news@out.test", recipient_email, mailing, now⟩

/-- The statements of a call up to the row of company and content. -/
def untilHeld (t : Nat) (user_id recipient_email : String) (now : Time) : List Action :=
  [.ask t (mailingFor recipient_email now), .locate t (some user_id), .spool t, .upsert t]

/-- The first recipient of a company. -/
def firstRecipient (t : Nat) (user_id recipient_email n : String) (now : Time) : List Action :=
  untilHeld t user_id recipient_email now ++
    [.attach t, .commit t ⟨"i" ++ n, "m" ++ n, ["a" ++ n], "r" ++ n⟩]

/-- A recipient of a company that has the mail. -/
def furtherRecipient (t : Nat) (user_id recipient_email n : String) (now : Time) : List Action :=
  untilHeld t user_id recipient_email now ++ [.commit t ⟨"i" ++ n, "m" ++ n, ["a" ++ n], "r" ++ n⟩]

/-- The mailing goes to Ana, to Bo, and to Ana once more. -/
def oneCompany : Option World := (machine sampleEnvironment).runWithin (Separate sampleEnvironment) sampleWorld
  (firstRecipient 1 "ana" "Ana@first.test" "1" 1 ++ furtherRecipient 2 "bo" "bo@first.test" "2" 2 ++
    furtherRecipient 3 "ana" "ana@first.test" "3" 3)

theorem one_company_is_exactly_once :
    Law sampleEnvironment (oneCompany.get (by decide +kernel)) :=
  inbound_exactly_once sampleEnvironment _
    ((Machine.Reach.start start_sampleWorld).runWithin (Option.some_get _).symm)

example : (oneCompany.get (by decide)).commits.map (fun c => c.result.duplicate) =
      [false, false, true] ∧
    (oneCompany.get (by decide)).db.mails.keys = {"m1"} := by
  decide

/-- The mailing goes to Ana, and then to Zoe. -/
def twoCompanies : Option World := (machine sampleEnvironment).run sampleWorld
  (firstRecipient 1 "ana" "ana@first.test" "1" 1 ++ untilHeld 2 "zoe" "zoe@second.test" 2 ++ [.attach 2])

theorem the_second_company_fails :
    (machine sampleEnvironment).Reachable (twoCompanies.get (by decide +kernel)) ∧
      (mailingFor "zoe@second.test" 2, .unique_violation "uq_mail_attachments_storage_key") ∈
        (twoCompanies.get (by decide +kernel)).failures ∧
      ¬ Law sampleEnvironment (twoCompanies.get (by decide +kernel)) := by
  have hfailure : (mailingFor "zoe@second.test" 2,
      Error.unique_violation "uq_mail_attachments_storage_key") ∈
        (twoCompanies.get (by decide +kernel)).failures := by decide +kernel
  refine ⟨Machine.reachable_of_run start_sampleWorld (Option.some_get _).symm, hfailure, ?_⟩
  intro h
  rcases h.failures _ hfailure with hlost | hnobody | hparse
  · cases hlost
  · cases hnobody
  · have hok : (parse_inbound_message sampleEnvironment
        (mailingFor "zoe@second.test" 2).raw_message).toBool = true := by decide +kernel
    rw [hparse] at hok
    cases hok

end moaworks.mail_inbound_operations

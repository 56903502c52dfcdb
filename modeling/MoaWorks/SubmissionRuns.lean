-- Exactly once: in every run, each recipient of a gateway queue commits at
-- most once, all of them share one mail, and a deleted mail takes no more.
import MoaWorks.SubmissionWrites

namespace moaworks.mail_submission_operations

open mail_provider_configs (ProviderRow)
open Raise (bind_ok require_ok)

variable {env : Environment} {w w' : World} {t u : Nat} {work : Work} {ids : NewIds}
  {db db' : Db} {mail_id user_id : String} {queue : QueueKey}

/-! ## The invariant -/

def Digested (env : Environment) (s : Submission) : Prop :=
  s.original_digest = env.sha256 s.raw_message

/-- A session with the lock of its queue, and what it has read there. -/
structure Held (w : World) (t : Nat) (work : Work) : Prop where
  holder : w.sources.holder work.queue = some t
  reads : Reads w.db work
  original : work.source.original_sha256 = work.submission.original_digest
  raw : work.source.raw_sha256 = work.submission.digest
  free : w.db.recipients.rows work.key = none

/-- What a session can rely on, by its phase. -/
def Sound (env : Environment) (w : World) (t : Nat) : Session → Prop
  | .idle _ => True
  | .asked s | .known s _ => Digested env s
  | .claimed s actor inserted => Digested env s ∧ (inserted = true →
      w.sources.holder (actor.company_id, s.queue_id) = some t ∧
        w.db.messages.rows (actor.company_id, s.queue_id) = none)
  | .selected work | .located work _ | .placed work _ => Digested env work.submission ∧ Held w t work
  | .routed work _ => Digested env work.submission ∧ Held w t work ∧
      (work.source.mail_message_id = none → work.source.stored_at = none)
  | .ingesting work user_id => Digested env work.submission ∧ Held w t work ∧
      (work.source.mail_message_id = none → work.source.stored_at = none) ∧
      ∃ user, w.db.directory.users.rows user_id = some user ∧
        Text.lower user.email = work.submission.recipient

/-- What the tables still know of a commit. -/
structure Traced (db : Db) (c : Commit) : Prop where
  source : ∃ source, db.messages.rows c.work.queue = some source ∧
    source.original_sha256 = c.work.submission.original_digest ∧
    source.raw_sha256 = c.work.submission.digest ∧
    (source.mail_message_id = none ∨ source.mail_message_id = c.mail)
  accepted : (db.recipients.rows c.work.key).isSome

/-- What one commit has done. -/
structure Proper (env : Environment) (c : Commit) : Prop where
  digested : Digested env c.work.submission
  new : c.before.recipients.rows c.work.key = none
  accepted : (c.after.recipients.rows c.work.key).isSome
  one : c.deliveries.card + c.received.card = 1
  stored : ∃ mail_id mail, c.mail = some mail_id ∧ c.after.mails.rows mail_id = some mail ∧
    mail.raw_sha256 = c.work.submission.digest ∧ Names c.before mail_id c.after
  inbox : Inbox c.after c.work c.mail

structure Invariant (env : Environment) (w : World) : Prop where
  backed : Backed w.db
  inbound : ∀ key row, w.db.inbound.rows key = some row →
    ∃ source, w.db.messages.rows key = some source ∧ row.content_sha256 = source.raw_sha256 ∧
      (row.mail_message_id = none ∨ row.mail_message_id = source.mail_message_id)
  distinct : ∀ key other row row', w.db.inbound.rows key = some row →
    w.db.inbound.rows other = some row' → row.id = row'.id → key = other
  received : ∀ id user_id, (w.db.inbound_recipients.rows (id, user_id)).isSome →
    ∃ key row user, w.db.inbound.rows key = some row ∧ row.id = id ∧
      w.db.directory.users.rows user_id = some user ∧
      (w.db.recipients.rows (key, Text.lower user.email)).isSome
  traced : ∀ c ∈ w.commits, Traced w.db c
  proper : ∀ c ∈ w.commits, Proper env c
  once : w.commits.Pairwise (fun a b => a.work.key ≠ b.work.key)
  same : ∀ a ∈ w.commits, ∀ b ∈ w.commits, a.work.queue = b.work.queue → a.mail = b.mail
  sound : ∀ t, Sound env w t (w.sessions t)

/-! ## What a step leaves to the other sessions -/

/-- A step of `t` takes no lock and no phase from another session. -/
structure Spares (t : Nat) (w w' : World) : Prop where
  sessions : ∀ u, u ≠ t → w'.sessions u = w.sessions u
  holder : ∀ u queue, u ≠ t → w.sources.holder queue = some u → w'.sources.holder queue = some u

/-- A step of `t` leaves the rows of the queues that others have locked, and
no user loses the address. -/
structure Frame (t : Nat) (w w' : World) : Prop extends Spares t w w' where
  messages : ∀ u queue, u ≠ t → w.sources.holder queue = some u →
    w'.db.messages.rows queue = w.db.messages.rows queue
  recipients : ∀ u queue recipient, u ≠ t → w.sources.holder queue = some u →
    w'.db.recipients.rows (queue, recipient) = w.db.recipients.rows (queue, recipient)
  users : ∀ user_id user, w.db.directory.users.rows user_id = some user →
    ∃ user', w'.db.directory.users.rows user_id = some user' ∧ user'.email = user.email

theorem Frame.held (hf : Frame t w w') (hne : u ≠ t) (h : Held w u work) : Held w' u work := by
  refine ⟨hf.holder u _ hne h.holder, ?_, h.original, h.raw, ?_⟩
  · unfold Reads
    rw [hf.messages u _ hne h.holder]
    exact h.reads
  · unfold Work.key
    rw [hf.recipients u _ _ hne h.holder]
    exact h.free

theorem Frame.sound (hi : Invariant env w) (hf : Frame t w w') (hne : u ≠ t) :
    Sound env w' u (w'.sessions u) := by
  rw [hf.sessions u hne]
  have h := hi.sound u
  cases hsession : w.sessions u <;> rw [hsession] at h
  case idle => trivial
  case asked => exact h
  case known => exact h
  case claimed =>
    refine ⟨h.1, fun hinserted => ?_⟩
    obtain ⟨hholder, hnone⟩ := h.2 hinserted
    exact ⟨hf.holder u _ hne hholder, (hf.messages u _ hne hholder).trans hnone⟩
  case selected => exact ⟨h.1, hf.held hne h.2⟩
  case located => exact ⟨h.1, hf.held hne h.2⟩
  case placed => exact ⟨h.1, hf.held hne h.2⟩
  case routed => exact ⟨h.1, hf.held hne h.2.1, h.2.2⟩
  case ingesting =>
    obtain ⟨hdigested, hheld, hopen, user, huser, hemail⟩ := h
    obtain ⟨user', huser', hsame⟩ := hf.users _ user huser
    refine ⟨hdigested, hf.held hne hheld, hopen, user', huser', ?_⟩
    rw [hsame]
    exact hemail

theorem Spares.frame (h : Spares t w w') (hdb : w'.db = w.db) : Frame t w w' := by
  refine ⟨h, ?_, ?_, ?_⟩
  · intro u queue _ _
    rw [hdb]
  · intro u queue recipient _ _
    rw [hdb]
  · intro user_id user huser
    rw [hdb]
    exact ⟨user, huser, rfl⟩

/-- The rule for a step that reads, locks or releases. -/
theorem Invariant.quiet (hi : Invariant env w) (h : Spares t w w') (hdb : w'.db = w.db)
    (hcommits : w'.commits = w.commits) (hsound : Sound env w' t (w'.sessions t)) :
    Invariant env w' := by
  have hsessions : ∀ u, Sound env w' u (w'.sessions u) := by
    intro u
    by_cases hut : u = t
    · subst hut
      exact hsound
    · exact (h.frame hdb).sound hi hut
  obtain ⟨hbacked, hinbound, hdistinct, hreceived, htraced, hproper, honce, hsame, _⟩ := hi
  rw [← hdb] at hbacked hinbound hdistinct hreceived htraced
  rw [← hcommits] at htraced hproper honce hsame
  exact ⟨hbacked, hinbound, hdistinct, hreceived, htraced, hproper, honce, hsame, hsessions⟩

/-! ## Steps that leave the tables alone -/

theorem spares_put (w : World) (t : Nat) (session : Session) : Spares t w (w.put t session) :=
  ⟨fun _ hne => if_neg hne, fun _ _ _ h => h⟩

theorem spares_finish (w : World) (t : Nat) (answer : Except Error Answer) :
    Spares t w (w.finish t answer) :=
  ⟨fun _ hne => if_neg hne, fun _ _ hne h => Locks.holder_release.2 ⟨h, hne⟩⟩

theorem spares_take {session : Session} (hopen : w.sources.open_to t queue = true) :
    Spares t w { w.put t session with sources := w.sources.take t queue } :=
  ⟨fun _ hne => if_neg hne, fun _ _ hne h => Locks.holder_take_of_open hopen h hne⟩

theorem put_keeps {session : Session} (hi : Invariant env w)
    (hsound : Sound env (w.put t session) t session) : Invariant env (w.put t session) := by
  have hself : (w.put t session).sessions t = session := if_pos rfl
  refine hi.quiet (spares_put w t session) rfl rfl ?_
  rw [hself]
  exact hsound

theorem Held.put {session : Session} (h : Held w t work) : Held (w.put t session) t work :=
  ⟨h.holder, h.reads, h.original, h.raw, h.free⟩

theorem finish_keeps {answer : Except Error Answer} (hi : Invariant env w) :
    Invariant env (w.finish t answer) := by
  have hself : (w.finish t answer).sessions t = .idle (some answer) := if_pos rfl
  refine hi.quiet (spares_finish w t answer) rfl rfl ?_
  rw [hself]
  trivial

theorem take_keeps {session : Session} (hi : Invariant env w)
    (hopen : w.sources.open_to t queue = true)
    (hsound : Sound env { w.put t session with sources := w.sources.take t queue } t session) :
    Invariant env { w.put t session with sources := w.sources.take t queue } := by
  have hself : (w.put t session).sessions t = session := if_pos rfl
  refine hi.quiet (spares_take hopen) rfl rfl ?_
  dsimp only
  rw [hself]
  exact hsound

theorem submission_digested {call : Call} {s : Submission} (h : submission env call = .ok s) :
    Digested env s := by
  unfold submission at h
  obtain ⟨_, _, h⟩ := bind_ok.1 h
  obtain ⟨_, _, h⟩ := bind_ok.1 h
  obtain ⟨_, _, h⟩ := bind_ok.1 h
  obtain ⟨_, _, h⟩ := bind_ok.1 h
  cases h
  rfl

theorem ask_keeps {call : Call} (hi : Invariant env w) (h : ask env w t call = some w') :
    Invariant env w' := by
  unfold ask at h
  split at h
  · split at h
    · cases h
      exact finish_keeps hi
    · rename_i s hs
      cases h
      exact put_keeps hi (submission_digested hs)
  · cases h

theorem know_keeps {pick : Option (String × String)} (hi : Invariant env w)
    (h : know w t pick = some w') : Invariant env w' := by
  unfold know at h
  split at h
  · rename_i s hsession
    have hsound := hi.sound t
    rw [hsession] at hsound
    dsimp only at h
    split_ifs at h
    split at h
    · cases h
      exact finish_keeps hi
    · cases h
      exact put_keeps hi hsound
  · cases h

theorem claim_keeps (hi : Invariant env w) (h : claim w t = some w') : Invariant env w' := by
  unfold claim at h
  split at h
  · rename_i s actor hsession
    have hsound := hi.sound t
    rw [hsession] at hsound
    split at h
    · cases h
      exact put_keeps hi ⟨hsound, nofun⟩
    · rename_i hnone
      split_ifs at h with hopen
      cases h
      exact take_keeps hi hopen ⟨hsound, fun _ => ⟨Locks.holder_take_self _ _ _, hnone⟩⟩
  · cases h

theorem visible_reads {s : Submission} {actor : Actor} {inserted : Bool} {source : Source}
    (h : visible w.db s actor inserted = some source)
    (hnone : inserted = true → w.db.messages.rows (actor.company_id, s.queue_id) = none) :
    Reads w.db ⟨s, actor, source, inserted⟩ := by
  unfold visible at h
  unfold Reads
  split_ifs at h ⊢ with hinserted
  · exact ⟨hnone hinserted, (Option.some.inj h).symm⟩
  · exact h

theorem select_keeps (hi : Invariant env w) (h : select w t = some w') : Invariant env w' := by
  unfold select at h
  split at h
  · rename_i s actor inserted hsession
    have hsound := hi.sound t
    rw [hsession] at hsound
    by_cases hopen : w.sources.open_to t (actor.company_id, s.queue_id) = true
    · rw [if_pos hopen] at h
      split at h
      · cases h
        exact finish_keeps hi
      · rename_i source hvisible
        by_cases hdigest : source.original_sha256 ≠ s.original_digest ∨ source.raw_sha256 ≠ s.digest
        · rw [if_pos hdigest] at h
          cases h
          exact finish_keeps hi
        · rw [if_neg hdigest] at h
          rw [not_or, not_not, not_not] at hdigest
          split at h
          · cases h
            exact finish_keeps hi
          · rename_i hfree
            cases h
            exact take_keeps hi hopen ⟨hsound.1, Locks.holder_take_self _ _ _,
              visible_reads hvisible (fun hinserted => (hsound.2 hinserted).2),
              hdigest.1, hdigest.2, hfree⟩
    · rw [if_neg hopen] at h
      cases h
  · cases h

theorem locate_keeps (hi : Invariant env w) (h : locate w t = some w') : Invariant env w' := by
  unfold locate at h
  split at h
  · rename_i work hsession
    have hsound := hi.sound t
    rw [hsession] at hsound
    cases h
    exact put_keeps hi ⟨hsound.1, hsound.2.put⟩
  · cases h

theorem place_keeps (hi : Invariant env w) (h : place w t = some w') : Invariant env w' := by
  unfold place at h
  split at h
  · rename_i work isLocal hsession
    have hsound := hi.sound t
    rw [hsession] at hsound
    dsimp only at h
    split_ifs at h
    · cases h
      exact finish_keeps hi
    · cases h
      exact put_keeps hi ⟨hsound.1, hsound.2.put⟩
  · cases h

theorem stillOpen_ok {source : Source} {u : Unit} (h : stillOpen source = .ok u)
    (hnone : source.mail_message_id = none) : source.stored_at = none := by
  have hopen := require_ok.1 h
  by_contra hstored
  exact hopen ⟨hnone, hstored⟩

theorem provider_ok {d : Directory} {internal : Bool} {found : Option String}
    (h : provider d work internal = .ok found) (hnone : work.source.mail_message_id = none) :
    work.source.stored_at = none := by
  unfold provider at h
  split_ifs at h
  · obtain ⟨_, hopen, _⟩ := bind_ok.1 h
    exact stillOpen_ok hopen hnone
  · obtain ⟨_, _, h⟩ := bind_ok.1 h
    obtain ⟨_, _, h⟩ := bind_ok.1 h
    obtain ⟨_, hopen, _⟩ := bind_ok.1 h
    exact stillOpen_ok hopen hnone

theorem route_keeps (hi : Invariant env w) (h : route w t = some w') : Invariant env w' := by
  unfold route at h
  split at h
  · rename_i work internal hsession
    have hsound := hi.sound t
    rw [hsession] at hsound
    split at h
    · cases h
      exact finish_keeps hi
    · rename_i hprovider
      cases h
      exact put_keeps hi ⟨hsound.1, hsound.2.put, provider_ok hprovider⟩
  · cases h

theorem ingest_keeps {pick : Option String} (hi : Invariant env w) (h : ingest w t pick = some w') :
    Invariant env w' := by
  unfold ingest at h
  split at h
  · rename_i work hsession
    have hsound := hi.sound t
    rw [hsession] at hsound
    dsimp only at h
    split at h
    · split_ifs at h with hmem
      cases h
      obtain ⟨user, huser, hchecks⟩ := (Table.mem_select _ _ _).1 hmem
      rw [Bool.and_eq_true, Bool.and_eq_true, decide_eq_true_eq] at hchecks
      exact put_keeps hi ⟨hsound.1, hsound.2.1.put, hsound.2.2, user, huser, hchecks.1.2⟩
    · split_ifs at h
      cases h
      exact finish_keeps hi
  · cases h

theorem abort_keeps {error : Error} (hi : Invariant env w) (h : abort w t error = some w') :
    Invariant env w' := by
  unfold abort at h
  split at h
  · cases h
  · cases h
    exact finish_keeps hi

/-! ## Commits -/

/-- An accepted recipient stays accepted. -/
theorem isSome_set {κ ρ : Type} [DecidableEq κ] {table : Table κ ρ} {k j : κ} {row : ρ}
    (h : (table.rows j).isSome) : ((table.set k row).rows j).isSome := by
  rw [Table.rows_set]
  split_ifs
  · rfl
  · exact h

/-- A queue that has committed before has a row, and the session works with its mail. -/
theorem Invariant.queue_mail (hi : Invariant env w) (hheld : Held w t work)
    (hopen : work.source.mail_message_id = none → work.source.stored_at = none) {c : Commit}
    (hc : c ∈ w.commits) (hqueue : c.work.queue = work.queue) :
    work.source.mail_message_id = c.mail ∧
      work.source.original_sha256 = c.work.submission.original_digest ∧
      work.source.raw_sha256 = c.work.submission.digest := by
  obtain ⟨source, hsource, horiginal, hraw, hmail⟩ := (hi.traced c hc).source
  rw [hqueue] at hsource
  have hreads := hheld.reads
  unfold Reads at hreads
  split_ifs at hreads
  · rw [hsource] at hreads
    cases hreads.1
  · rw [hsource] at hreads
    cases hreads
    refine ⟨hmail.resolve_left ?_, horiginal, hraw⟩
    intro hnone
    have hstored := (hi.backed _ _ hsource).1
    rw [hopen hnone] at hstored
    cases hstored

theorem Stored.backed (hstored : Stored db work mail_id db') (h : Backed db) : Backed db' := by
  intro key source hsource
  by_cases hkey : key = work.queue
  · subst hkey
    obtain ⟨source', hsource', hmail, hat, _, hraw⟩ := hstored.source
    rw [hsource'] at hsource
    cases hsource
    refine ⟨hat, ?_⟩
    intro id hid
    rw [hmail] at hid
    cases hid
    rw [hraw]
    exact hstored.mail
  · rw [hstored.others key hkey] at hsource
    obtain ⟨hat, hmails⟩ := h key source hsource
    refine ⟨hat, ?_⟩
    intro id hid
    obtain ⟨mail, hmail, hraw⟩ := hmails id hid
    exact ⟨mail, hstored.mails id mail hmail, hraw⟩

theorem SameInbound.distinct (hsame : SameInbound db work db')
    (h : ∀ key other row row', db.inbound.rows key = some row → db.inbound.rows other = some row' →
      row.id = row'.id → key = other) {key other : QueueKey} {row row' : Inbound}
    (hrow : db'.inbound.rows key = some row) (hrow' : db'.inbound.rows other = some row')
    (hid : row.id = row'.id) : key = other := by
  -- the id of the queue is an old one of the queue, or none of the others
  have hqueue : ∀ {other : QueueKey} {row row' : Inbound}, other ≠ work.queue →
      db'.inbound.rows work.queue = some row → db.inbound.rows other = some row' →
      row.id ≠ row'.id := by
    intro other row row' hother hrow hrow' hid
    rcases hsame.fresh row hrow with ⟨old, hold, hsameid⟩ | hfresh
    · exact hother (h _ _ _ _ hold hrow' (hsameid.trans hid)).symm
    · exact hfresh other row' hrow' hid.symm
  by_cases hkey : key = work.queue
  · by_cases hother : other = work.queue
    · rw [hkey, hother]
    · subst hkey
      rw [hsame.others other hother] at hrow'
      exact absurd hid (hqueue hother hrow hrow')
  · rw [hsame.others key hkey] at hrow
    by_cases hother : other = work.queue
    · subst hother
      exact absurd hid.symm (hqueue hkey hrow' hrow)
    · rw [hsame.others other hother] at hrow'
      exact h _ _ _ _ hrow hrow' hid

/-- Every recipient of an inbound message is an accepted recipient of its queue. -/
def Matched (db : Db) : Prop := ∀ id user_id, (db.inbound_recipients.rows (id, user_id)).isSome →
  ∃ key row user, db.inbound.rows key = some row ∧ row.id = id ∧
    db.directory.users.rows user_id = some user ∧
    (db.recipients.rows (key, Text.lower user.email)).isSome

theorem Enters.matched (h : Enters db work mail_id db') (hmatched : Matched db) : Matched db' := by
  obtain ⟨accepted, haccepted⟩ := h.accepted
  have hold : ∀ id user_id, (db.inbound_recipients.rows (id, user_id)).isSome →
      ∃ key row user, db'.inbound.rows key = some row ∧ row.id = id ∧
        db'.directory.users.rows user_id = some user ∧
        (db'.recipients.rows (key, Text.lower user.email)).isSome := by
    intro id user_id hsome
    obtain ⟨key, row, user, hrow, hid, huser, haccept⟩ := hmatched id user_id hsome
    rw [h.directory, haccepted]
    by_cases hkey : key = work.queue
    · subst hkey
      obtain ⟨row', hrow', hid'⟩ := h.same.kept row hrow
      exact ⟨work.queue, row', user, hrow', hid'.trans hid, huser, isSome_set haccept⟩
    · exact ⟨key, row, user, (h.same.others key hkey).trans hrow, hid, huser, isSome_set haccept⟩
  intro id user_id hsome
  rcases h.more with hsame | ⟨row, user', user, entry, hrow, huser, hemail, hset⟩
  · rw [hsame] at hsome
    exact hold id user_id hsome
  · rw [hset, Table.rows_set] at hsome
    split_ifs at hsome with hnew
    · cases hnew
      refine ⟨work.queue, row, user, hrow, rfl, ?_, ?_⟩
      · rw [h.directory]
        exact huser
      · rw [haccepted, hemail]
        exact Option.isSome_of_eq_some (Table.rows_set_self _ work.key _)
    · exact hold id user_id hsome

theorem Enters.frame (h : Enters w.db work mail_id db) (hholder : w.sources.holder work.queue = some t)
    {answer : Except Error Answer} {commits : List Commit} :
    Frame t w { w.finish t answer with db := db, commits := commits } := by
  have hspares := spares_finish w t answer
  have hother : ∀ u queue, u ≠ t → w.sources.holder queue = some u → queue ≠ work.queue := by
    rintro u queue hne hu rfl
    rw [hholder] at hu
    exact hne (Option.some.inj hu).symm
  refine ⟨⟨hspares.sessions, hspares.holder⟩, ?_, ?_, ?_⟩
  · intro u queue hne hu
    exact h.stored.others queue (hother u queue hne hu)
  · intro u queue recipient hne hu
    obtain ⟨row, hset⟩ := h.accepted
    dsimp only
    rw [hset]
    refine Table.rows_set_ne _ _ ?_
    intro hkey
    exact hother u queue hne hu (congrArg Prod.fst hkey)
  · intro user_id user huser
    dsimp only
    rw [h.directory]
    exact ⟨user, huser, rfl⟩

theorem enter_keeps {answer : Except Error Answer} (hi : Invariant env w)
    (hdigested : Digested env work.submission) (hheld : Held w t work)
    (hopen : work.source.mail_message_id = none → work.source.stored_at = none)
    (h : Enters w.db work mail_id db) :
    Invariant env { w.finish t answer with
      db := db
      commits := w.commits ++ [⟨work, w.db, db⟩] } := by
  have hframe : Frame t w { w.finish t answer with
      db := db
      commits := w.commits ++ [⟨work, w.db, db⟩] } := h.frame hheld.holder
  obtain ⟨source, hsource, hmail, hat, horiginal, hraw⟩ := h.stored.source
  obtain ⟨accepted, haccepted⟩ := h.accepted
  have hnewmail : (⟨work, w.db, db⟩ : Commit).mail = some mail_id := by
    unfold Commit.mail
    dsimp only
    rw [hsource]
    exact hmail
  have holdmail : ∀ c ∈ w.commits, c.work.queue = work.queue → c.mail = some mail_id := by
    intro c hc hqueue
    obtain ⟨hsame, _, _⟩ := hi.queue_mail hheld hopen hc hqueue
    obtain ⟨id, _, hid, _⟩ := (hi.proper c hc).stored
    rw [hid] at hsame
    rw [hid, ← hsame]
    exact h.source.resolve_left (by rw [hsame]; simp)
  have hself : (db.recipients.rows work.key).isSome := by
    rw [haccepted]
    exact Option.isSome_of_eq_some (Table.rows_set_self _ _ _)
  refine ⟨h.stored.backed hi.backed, ?_, ?_, h.matched hi.received, ?_, ?_, ?_, ?_, ?_⟩
  · intro key row hrow
    by_cases hkey : key = work.queue
    · subst hkey
      obtain ⟨hcontent, hinbox⟩ := h.inbox row hrow
      refine ⟨source, hsource, ?_, ?_⟩
      · rw [hcontent, hraw, hheld.raw]
      · rw [hmail]
        exact hinbox
    · have hrow' := (h.same.others key hkey).symm.trans hrow
      obtain ⟨old, hold, hfacts⟩ := hi.inbound key row hrow'
      exact ⟨old, (h.stored.others key hkey).trans hold, hfacts⟩
  · intro key other row row' hrow hrow' hid
    exact h.same.distinct hi.distinct hrow hrow' hid
  · intro c hc
    rcases List.mem_append.1 hc with hc | hc
    · obtain ⟨⟨old, hold, horig, hdigest, hcmail⟩, hcaccepted⟩ := hi.traced c hc
      refine ⟨?_, ?_⟩
      · by_cases hqueue : c.work.queue = work.queue
        · obtain ⟨_, horig, hdigest⟩ := hi.queue_mail hheld hopen hc hqueue
          rw [hqueue]
          refine ⟨source, hsource, horiginal.trans horig, hraw.trans hdigest, Or.inr ?_⟩
          rw [hmail, holdmail c hc hqueue]
        · exact ⟨old, (h.stored.others _ hqueue).trans hold, horig, hdigest, hcmail⟩
      · dsimp only
        rw [haccepted]
        exact isSome_set hcaccepted
    · rw [List.mem_singleton] at hc
      subst hc
      refine ⟨⟨source, hsource, horiginal.trans hheld.original, hraw.trans hheld.raw, Or.inr ?_⟩,
        hself⟩
      rw [hmail, hnewmail]
  · intro c hc
    rcases List.mem_append.1 hc with hc | hc
    · exact hi.proper c hc
    · rw [List.mem_singleton] at hc
      subst hc
      obtain ⟨mail, hthere, hmailraw⟩ := h.stored.mail
      refine ⟨hdigested, hheld.free, hself, h.one,
        ⟨mail_id, mail, hnewmail, hthere, hmailraw.trans hheld.raw, h.names⟩, ?_⟩
      rw [hnewmail]
      exact h.inbox
  · refine List.pairwise_append.2 ⟨hi.once, List.pairwise_singleton _ _, ?_⟩
    intro a ha b hb hkey
    rw [List.mem_singleton] at hb
    subst hb
    have hsome := (hi.traced a ha).accepted
    rw [hkey, hheld.free] at hsome
    cases hsome
  · intro a ha b hb hqueue
    rcases List.mem_append.1 ha with ha | ha
    · rcases List.mem_append.1 hb with hb | hb
      · exact hi.same a ha b hb hqueue
      · rw [List.mem_singleton] at hb
        subst hb
        rw [hnewmail]
        exact holdmail a ha hqueue
    · rw [List.mem_singleton] at ha
      subst ha
      rcases List.mem_append.1 hb with hb | hb
      · rw [hnewmail]
        exact (holdmail b hb hqueue.symm).symm
      · rw [List.mem_singleton] at hb
        subst hb
        rfl
  · intro u
    by_cases hut : u = t
    · subst hut
      have hidle : (w.finish u answer).sessions u = .idle (some answer) := if_pos rfl
      dsimp only
      rw [hidle]
      trivial
    · exact hframe.sound hi hut

theorem Invariant.inbox (hi : Invariant env w) (hheld : Held w t work) :
    Inbox w.db work work.source.mail_message_id := by
  intro row hrow
  obtain ⟨source, hsource, hcontent, hmail⟩ := hi.inbound work.queue row hrow
  have hreads := hheld.reads
  unfold Reads at hreads
  split_ifs at hreads
  · rw [hsource] at hreads
    cases hreads.1
  · rw [hsource] at hreads
    cases hreads
    exact ⟨hcontent.trans hheld.raw, hmail⟩

/-- The user of an address that is not accepted yet has no row in the inbox of the queue. -/
theorem Invariant.unreceived (hi : Invariant env w) (hheld : Held w t work) {user : User}
    (huser : w.db.directory.users.rows user_id = some user)
    (hemail : Text.lower user.email = work.submission.recipient) {row : Inbound}
    (hrow : w.db.inbound.rows work.queue = some row) :
    w.db.inbound_recipients.rows (row.id, user_id) = none := by
  by_contra hsome
  obtain ⟨key, row', user', hrow', hid, huser', haccepted⟩ :=
    hi.received row.id user_id (Option.isSome_iff_ne_none.2 hsome)
  obtain rfl := hi.distinct key work.queue row' row hrow' hrow hid
  rw [huser] at huser'
  cases huser'
  rw [hemail] at haccepted
  have hfree := hheld.free
  unfold Work.key at hfree
  rw [hfree] at haccepted
  cases haccepted

/-- A commit fails and writes nothing, or it enters one recipient. -/
theorem commit_does (hi : Invariant env w) (h : commit w t ids = some w') :
    (∃ answer, w' = w.finish t answer) ∨
      ∃ answer work mail_id db, Digested env work.submission ∧ Held w t work ∧
        (work.source.mail_message_id = none → work.source.stored_at = none) ∧
        Enters w.db work mail_id db ∧ w' = { w.finish t answer with
          db := db
          commits := w.commits ++ [⟨work, w.db, db⟩] } := by
  unfold commit at h
  split at h
  · rename_i work provider_id hsession
    have hsound := hi.sound t
    rw [hsession] at hsound
    obtain ⟨hdigested, hheld, hopen⟩ := hsound
    cases h
    unfold close
    split
    · exact Or.inl ⟨_, rfl⟩
    · rename_i hwrites
      obtain ⟨mail_id, henters⟩ := writesOutbound_enters hi.backed hheld.reads hheld.raw
        (hi.inbox hheld) hwrites
      exact Or.inr ⟨_, work, mail_id, _, hdigested, hheld, hopen, henters, rfl⟩
  · rename_i work user_id hsession
    have hsound := hi.sound t
    rw [hsession] at hsound
    obtain ⟨hdigested, hheld, hopen, user, huser, hemail⟩ := hsound
    cases h
    unfold close
    split
    · exact Or.inl ⟨_, rfl⟩
    · rename_i hwrites
      have hforeign : ∀ id user_id, (w.db.inbound_recipients.rows (id, user_id)).isSome →
          ∃ key row, w.db.inbound.rows key = some row ∧ row.id = id := by
        intro id user_id hsome
        obtain ⟨key, row, _, hrow, hid, _⟩ := hi.received id user_id hsome
        exact ⟨key, row, hrow, hid⟩
      obtain ⟨mail_id, henters⟩ := writesInternal_enters hi.backed hheld.reads hheld.raw
        (hi.inbox hheld) hforeign (fun _ hrow => hi.unreceived hheld huser hemail hrow) huser hemail
        hwrites
      exact Or.inr ⟨_, work, mail_id, _, hdigested, hheld, hopen, henters, rfl⟩
  · cases h

theorem commit_keeps (hi : Invariant env w) (h : commit w t ids = some w') : Invariant env w' := by
  obtain ⟨answer, rfl⟩ | ⟨answer, work, mail_id, db, hdigested, hheld, hopen, henters, rfl⟩ :=
    commit_does hi h
  · exact finish_keeps hi
  · exact enter_keeps hi hdigested hheld hopen henters

/-! ## Administration and deletion -/

theorem Directory.Grows.user {d d' : Directory} (h : d.Grows d') {user : User}
    (huser : d.users.rows user_id = some user) :
    ∃ user', d'.users.rows user_id = some user' ∧ user'.email = user.email := by
  have hmem : user_id ∈ d.users.keys := (d.users.mem_keys user_id).2 (by rw [huser]; rfl)
  have hsame := h user_id hmem
  rw [huser, Option.map_some, Option.map_eq_some_iff] at hsame
  obtain ⟨user', huser', hpair⟩ := hsame
  exact ⟨user', huser', congrArg Prod.snd hpair⟩

theorem administer_keeps {d : Directory} (hi : Invariant env w) (hgrows : w.db.directory.Grows d) :
    Invariant env { w with db := { w.db with directory := d } } := by
  have hframe : ∀ t, Frame t w { w with db := { w.db with directory := d } } := fun t =>
    ⟨⟨fun _ _ => rfl, fun _ _ _ h => h⟩, fun _ _ _ _ => rfl, fun _ _ _ _ _ => rfl,
      fun _ _ huser => hgrows.user huser⟩
  refine ⟨hi.backed, hi.inbound, hi.distinct, ?_, fun c hc => ⟨(hi.traced c hc).source,
    (hi.traced c hc).accepted⟩, hi.proper, hi.once, hi.same, ?_⟩
  · intro id user_id hsome
    obtain ⟨key, row, user, hrow, hid, huser, haccepted⟩ := hi.received id user_id hsome
    obtain ⟨user', huser', hemail⟩ := hgrows.user huser
    refine ⟨key, row, user', hrow, hid, huser', ?_⟩
    rw [hemail]
    exact haccepted
  · intro u
    exact (hframe (u + 1)).sound hi (Nat.ne_of_lt (Nat.lt_succ_self u))

/-- The row of a queue, after the deletion of a mail. -/
theorem source_deleteMail {source : Source} :
    (db.deleteMail mail_id).messages.rows queue = some source ↔
      ∃ old, db.messages.rows queue = some old ∧
        source = if old.mail_message_id = some mail_id then { old with mail_message_id := none }
          else old := by
  unfold Db.deleteMail
  simp only [Table.rows_update, Option.map_eq_some_iff, decide_eq_true_eq]
  exact ⟨fun ⟨old, hold, heq⟩ => ⟨old, hold, heq.symm⟩, fun ⟨old, hold, heq⟩ => ⟨old, hold, heq.symm⟩⟩

theorem inbound_deleteMail {row : Inbound} :
    (db.deleteMail mail_id).inbound.rows queue = some row ↔
      ∃ old, db.inbound.rows queue = some old ∧
        row = if old.mail_message_id = some mail_id then { old with mail_message_id := none }
          else old := by
  unfold Db.deleteMail
  simp only [Table.rows_update, Option.map_eq_some_iff, decide_eq_true_eq]
  exact ⟨fun ⟨old, hold, heq⟩ => ⟨old, hold, heq.symm⟩, fun ⟨old, hold, heq⟩ => ⟨old, hold, heq.symm⟩⟩

theorem backed_deleteMail (h : Backed db) : Backed (db.deleteMail mail_id) := by
  intro key source hsource
  obtain ⟨old, hold, rfl⟩ := source_deleteMail.1 hsource
  obtain ⟨hat, hmails⟩ := h key old hold
  split_ifs with hgone
  · exact ⟨hat, nofun⟩
  · refine ⟨hat, ?_⟩
    intro id hid
    obtain ⟨mail, hmail, hraw⟩ := hmails id hid
    refine ⟨mail, Table.rows_erase_eq_some.2 ⟨?_, hmail⟩, hraw⟩
    rintro rfl
    exact hgone hid

theorem delete_keeps (hi : Invariant env w)
    (hfree : ∀ key ∈ sourcesOf w.db mail_id, w.sources.holder key = none) :
    Invariant env { w with db := w.db.deleteMail mail_id } := by
  have hframe : ∀ t, Frame t w { w with db := w.db.deleteMail mail_id } := by
    refine fun t => ⟨⟨fun _ _ => rfl, fun _ _ _ h => h⟩, ?_, fun _ _ _ _ _ => rfl,
      fun _ user huser => ⟨user, huser, rfl⟩⟩
    intro u queue _ hu
    have hkept : queue ∉ sourcesOf w.db mail_id := by
      intro hmem
      rw [hfree queue hmem] at hu
      cases hu
    dsimp only [Db.deleteMail]
    rw [Table.rows_update]
    cases hrow : w.db.messages.rows queue with
    | none => rfl
    | some source =>
      have hother : ¬ source.mail_message_id = some mail_id := by
        intro hmail
        exact hkept ((Table.mem_select _ _ _).2 ⟨source, hrow, decide_eq_true hmail⟩)
      rw [Option.map_some, if_neg (by rw [decide_eq_true_eq]; exact hother)]
  refine ⟨backed_deleteMail hi.backed, ?_, ?_, ?_, ?_, hi.proper, hi.once, hi.same, ?_⟩
  · intro key row hrow
    obtain ⟨old, hold, rfl⟩ := inbound_deleteMail.1 hrow
    obtain ⟨source, hsource, hcontent, hmail⟩ := hi.inbound key old hold
    refine ⟨_, source_deleteMail.2 ⟨source, hsource, rfl⟩, ?_, ?_⟩
    · split_ifs <;> exact hcontent
    · by_cases hgone : old.mail_message_id = some mail_id
      · rw [if_pos hgone]
        exact Or.inl rfl
      · rw [if_neg hgone]
        refine hmail.imp id ?_
        intro hsame
        rw [if_neg]
        · exact hsame
        · rw [← hsame]
          exact hgone
  · intro key other row row' hrow hrow' hid
    obtain ⟨old, hold, rfl⟩ := inbound_deleteMail.1 hrow
    obtain ⟨old', hold', rfl⟩ := inbound_deleteMail.1 hrow'
    refine hi.distinct key other old old' hold hold' ?_
    split_ifs at hid <;> exact hid
  · intro id user_id hsome
    have hbefore : (w.db.inbound_recipients.rows (id, user_id)).isSome := by
      rw [← Option.isSome_map]
      exact hsome
    obtain ⟨key, row, user, hrow, hid, huser, haccepted⟩ := hi.received id user_id hbefore
    refine ⟨key, _, user, inbound_deleteMail.2 ⟨row, hrow, rfl⟩, ?_, huser, haccepted⟩
    split_ifs <;> exact hid
  · intro c hc
    obtain ⟨⟨source, hsource, horiginal, hraw, hmail⟩, haccepted⟩ := hi.traced c hc
    refine ⟨⟨_, source_deleteMail.2 ⟨source, hsource, rfl⟩, ?_⟩, haccepted⟩
    split_ifs
    · exact ⟨horiginal, hraw, Or.inl rfl⟩
    · exact ⟨horiginal, hraw, hmail⟩
  · intro u
    exact (hframe (u + 1)).sound hi (Nat.ne_of_lt (Nat.lt_succ_self u))

/-! ## Runs -/

theorem step_keeps {a : Action} (hi : Invariant env w) (h : step env w a = some w') :
    Invariant env w' := by
  cases a with
  | ask t call => exact ask_keeps hi h
  | know t pick => exact know_keeps hi h
  | claim t => exact claim_keeps hi h
  | select t => exact select_keeps hi h
  | locate t => exact locate_keeps hi h
  | place t => exact place_keeps hi h
  | route t => exact route_keeps hi h
  | ingest t pick => exact ingest_keeps hi h
  | commit t ids => exact commit_keeps hi h
  | abort t error => exact abort_keeps hi h
  | administer directory =>
    dsimp only [step] at h
    split_ifs at h with hgrows
    cases h
    exact administer_keeps hi hgrows
  | delete mail_id =>
    dsimp only [step] at h
    split_ifs at h with hfree
    cases h
    exact delete_keeps hi hfree

theorem start_invariant (h : Start w) : Invariant env w := by
  refine ⟨?_, ?_, ?_, ?_, ?_, ?_, ?_, ?_, ?_⟩
  · intro key source hsource
    rw [h.messages] at hsource
    cases hsource
  · intro key row hrow
    rw [h.inbound] at hrow
    cases hrow
  · intro key other row row' hrow
    rw [h.inbound] at hrow
    cases hrow
  · intro id user_id hsome
    rw [h.inbound_recipients] at hsome
    cases hsome
  · rw [h.commits]
    exact fun _ hc => nomatch hc
  · rw [h.commits]
    exact fun _ hc => nomatch hc
  · rw [h.commits]
    exact .nil
  · rw [h.commits]
    exact fun _ hc => nomatch hc
  · intro t
    obtain ⟨answer, hidle⟩ := h.quiet t
    rw [hidle]
    trivial

theorem invariant_of_reachable (h : (machine env).Reachable w) : Invariant env w := by
  refine h.invariant ?_ ?_
  · intro w hstart
    exact start_invariant hstart
  · intro s a s' hi hstep
    exact step_keeps hi hstep

/-! ## What creates rows -/

variable {a : Action}

/-- The steps, by what they do to the tables. -/
inductive Does (w : World) (a : Action) (w' : World) : Prop
  | reads (hdb : w'.db = w.db) (hcommits : w'.commits = w.commits)
  | enters (t : Nat) (work : Work) (mail_id : String) (hheld : Held w t work)
      (hopen : work.source.mail_message_id = none → work.source.stored_at = none)
      (henters : Enters w.db work mail_id w'.db)
      (hcommits : w'.commits = w.commits ++ [⟨work, w.db, w'.db⟩])
  | administers (directory : Directory) (ha : a = .administer directory)
      (hdb : w'.db = { w.db with directory := directory })
      (hcommits : w'.commits = w.commits)
  | deletes (mail_id : String) (ha : a = .delete mail_id) (hdb : w'.db = w.db.deleteMail mail_id)
      (hcommits : w'.commits = w.commits)

theorem ask_does {call : Call} (h : ask env w t call = some w') : Does w a w' := by
  unfold ask at h
  split at h
  · split at h <;> cases h <;> exact .reads rfl rfl
  · cases h

theorem know_does {pick : Option (String × String)} (h : know w t pick = some w') :
    Does w a w' := by
  unfold know at h
  split at h
  · dsimp only at h
    split_ifs at h
    split at h <;> cases h <;> exact .reads rfl rfl
  · cases h

theorem claim_does (h : claim w t = some w') : Does w a w' := by
  unfold claim at h
  split at h
  · split at h
    · cases h
      exact .reads rfl rfl
    · split_ifs at h
      cases h
      exact .reads rfl rfl
  · cases h

theorem select_does (h : select w t = some w') : Does w a w' := by
  unfold select at h
  split at h
  · rename_i s actor inserted _
    by_cases hopen : w.sources.open_to t (actor.company_id, s.queue_id) = true
    · rw [if_pos hopen] at h
      split at h
      · cases h
        exact .reads rfl rfl
      · rename_i source _
        by_cases hdigest : source.original_sha256 ≠ s.original_digest ∨ source.raw_sha256 ≠ s.digest
        · rw [if_pos hdigest] at h
          cases h
          exact .reads rfl rfl
        · rw [if_neg hdigest] at h
          split at h <;> cases h <;> exact .reads rfl rfl
    · rw [if_neg hopen] at h
      cases h
  · cases h

theorem locate_does (h : locate w t = some w') : Does w a w' := by
  unfold locate at h
  split at h <;> cases h
  exact .reads rfl rfl

theorem place_does (h : place w t = some w') : Does w a w' := by
  unfold place at h
  split at h
  · dsimp only at h
    split_ifs at h <;> cases h <;> exact .reads rfl rfl
  · cases h

theorem route_does (h : route w t = some w') : Does w a w' := by
  unfold route at h
  split at h
  · split at h <;> cases h <;> exact .reads rfl rfl
  · cases h

theorem ingest_does {pick : Option String} (h : ingest w t pick = some w') : Does w a w' := by
  unfold ingest at h
  split at h
  · dsimp only at h
    split at h <;> split_ifs at h <;> cases h <;> exact .reads rfl rfl
  · cases h

theorem abort_does {error : Error} (h : abort w t error = some w') : Does w a w' := by
  unfold abort at h
  split at h <;> cases h
  exact .reads rfl rfl

theorem step_does (hi : Invariant env w) (h : step env w a = some w') :
    Does w a w' := by
  cases a with
  | ask t call => exact ask_does h
  | know t pick => exact know_does h
  | claim t => exact claim_does h
  | select t => exact select_does h
  | locate t => exact locate_does h
  | place t => exact place_does h
  | route t => exact route_does h
  | ingest t pick => exact ingest_does h
  | commit t ids =>
    obtain ⟨answer, rfl⟩ | ⟨answer, work, mail_id, db, _, hheld, hopen, henters, rfl⟩ :=
      commit_does hi h
    · exact .reads rfl rfl
    · exact .enters t work mail_id hheld hopen henters rfl
  | abort t error => exact abort_does h
  | administer directory =>
    dsimp only [step] at h
    split_ifs at h
    cases h
    exact .administers directory rfl rfl rfl
  | delete mail_id =>
    dsimp only [step] at h
    split_ifs at h
    cases h
    exact .deletes mail_id rfl rfl rfl

/-- No mail, no row of the delivery queue and no inbound recipient is new. -/
structure NothingNew (db db' : Db) : Prop where
  mails : db'.mails.keys ⊆ db.mails.keys
  deliveries : db'.deliveries.keys ⊆ db.deliveries.keys
  received : db'.inbound_recipients.keys ⊆ db.inbound_recipients.keys

theorem nothingNew_deleteMail : NothingNew db (db.deleteMail mail_id) := by
  refine ⟨Finset.erase_subset _ _, ?_, Finset.Subset.refl _⟩
  intro id hid
  obtain ⟨row, hrow, _⟩ := (Table.mem_select _ _ _).1 hid
  exact (db.deliveries.mem_keys id).2 (Option.isSome_of_eq_some hrow)

/-- A step of a call changes no table, or is a commit that is noted. The
administration and the deletion of a mail create nothing. -/
def Creates (w : World) (a : Action) (w' : World) : Prop :=
  (w'.db = w.db ∧ w'.commits = w.commits) ∨
    (∃ work, w'.commits = w.commits ++ [⟨work, w.db, w'.db⟩]) ∨
    (NothingNew w.db w'.db ∧ w'.commits = w.commits ∧
      ((∃ directory, a = .administer directory) ∨ ∃ mail_id, a = .delete mail_id))

theorem Does.creates (h : Does w a w') : Creates w a w' := by
  cases h with
  | reads hdb hcommits => exact Or.inl ⟨hdb, hcommits⟩
  | enters t work mail_id hheld hopen henters hcommits => exact Or.inr (Or.inl ⟨work, hcommits⟩)
  | administers directory ha hdb hcommits =>
    refine Or.inr (Or.inr ⟨?_, hcommits, Or.inl ⟨directory, ha⟩⟩)
    rw [hdb]
    exact ⟨Finset.Subset.refl _, Finset.Subset.refl _, Finset.Subset.refl _⟩
  | deletes mail_id ha hdb hcommits =>
    refine Or.inr (Or.inr ⟨?_, hcommits, Or.inr ⟨mail_id, ha⟩⟩)
    rw [hdb]
    exact nothingNew_deleteMail

/-! ## Deleted mails -/

/-- The mail of the queue was stored, and is deleted. -/
def Deleted (db : Db) (queue : QueueKey) : Prop :=
  ∃ source, db.messages.rows queue = some source ∧ source.mail_message_id = none ∧
    source.stored_at.isSome

/-- The commits on one queue. -/
def World.commitsOf (w : World) (queue : QueueKey) : List Commit :=
  w.commits.filter (fun c => decide (c.work.queue = queue))

theorem Deleted.unheld (h : Deleted w.db queue) (hheld : Held w t work)
    (hopen : work.source.mail_message_id = none → work.source.stored_at = none) :
    queue ≠ work.queue := by
  rintro rfl
  obtain ⟨source, hsource, hnone, hstored⟩ := h
  have hreads := hheld.reads
  unfold Reads at hreads
  split_ifs at hreads
  · rw [hsource] at hreads
    cases hreads.1
  · rw [hsource] at hreads
    cases hreads
    rw [hopen hnone] at hstored
    cases hstored

/-- A queue with a deleted mail commits nothing more. -/
theorem Does.deleted (h : Does w a w') (hdeleted : Deleted w.db queue) :
    Deleted w'.db queue ∧ w'.commitsOf queue = w.commitsOf queue := by
  unfold World.commitsOf
  cases h with
  | reads hdb hcommits =>
    rw [hdb, hcommits]
    exact ⟨hdeleted, rfl⟩
  | enters t work mail_id hheld hopen henters hcommits =>
    have hother := hdeleted.unheld hheld hopen
    obtain ⟨source, hsource, hfacts⟩ := hdeleted
    refine ⟨⟨source, (henters.stored.others queue hother).trans hsource, hfacts⟩, ?_⟩
    rw [hcommits, List.filter_append, List.filter_cons_of_neg, List.filter_nil, List.append_nil]
    rw [decide_eq_true_eq]
    exact hother.symm
  | administers directory ha hdb hcommits =>
    rw [hdb, hcommits]
    exact ⟨hdeleted, rfl⟩
  | deletes mail_id ha hdb hcommits =>
    rw [hdb, hcommits]
    refine ⟨?_, rfl⟩
    obtain ⟨source, hsource, hnone, hstored⟩ := hdeleted
    refine ⟨source, source_deleteMail.2 ⟨source, hsource, ?_⟩, hnone, hstored⟩
    rw [if_neg]
    rw [hnone]
    nofun

theorem deleted_later (hreach : (machine env).Reachable w) (hdeleted : Deleted w.db queue)
    (hlater : (machine env).Later w w') :
    Deleted w'.db queue ∧ w'.commitsOf queue = w.commitsOf queue := by
  refine Machine.Later.keeps
    (P := fun s => Deleted s.db queue ∧ s.commitsOf queue = w.commitsOf queue) hreach hlater ?_
    ⟨hdeleted, rfl⟩
  intro s a s' hs hold hstep
  obtain ⟨hdeleted', hsame⟩ := (step_does (invariant_of_reachable hs) hstep).deleted hold.1
  exact ⟨hdeleted', hsame.trans hold.2⟩

/-! ## Another content -/

/-- The answer of a call that is rejected, and tables that it has not touched. -/
def Rejected (w : World) (t : Nat) (w' : World) : Prop :=
  w'.db = w.db ∧ w'.sessions t = .idle (some (.error queueConflict))

theorem select_rejects {s : Submission} {actor : Actor} {inserted : Bool} {c : Commit}
    (hi : Invariant env w) (hsession : w.sessions t = .claimed s actor inserted)
    (hc : c ∈ w.commits) (hqueue : c.work.queue = (actor.company_id, s.queue_id))
    (hdigest : env.sha256 s.raw_message ≠ env.sha256 c.work.submission.raw_message)
    (h : select w t = some w') : Rejected w t w' := by
  obtain ⟨source, hsource, horiginal, _, _⟩ := (hi.traced c hc).source
  rw [hqueue] at hsource
  have hsound := hi.sound t
  rw [hsession] at hsound
  have hvisible : visible w.db s actor inserted = some source := by
    unfold visible
    split_ifs with hinserted
    · rw [(hsound.2 hinserted).2] at hsource
      cases hsource
    · exact hsource
  have hother : source.original_sha256 ≠ s.original_digest := by
    rw [horiginal, (hi.proper c hc).digested, hsound.1]
    exact hdigest.symm
  unfold select at h
  rw [hsession] at h
  dsimp only at h
  split_ifs at h
  rw [hvisible] at h
  dsimp only at h
  rw [if_pos (Or.inl hother)] at h
  cases h
  exact ⟨rfl, if_pos rfl⟩

/-! ## Exactly once -/

/-- What the commits of a run have in common: each recipient commits once and
gets one row, of the delivery queue or of the inbox, and all recipients of a
queue share one stored mail and one content. -/
structure ExactlyOnce (commits : List Commit) : Prop where
  once : commits.Pairwise (fun a b => a.work.key ≠ b.work.key)
  one : ∀ c ∈ commits, c.deliveries.card + c.received.card = 1
  stored : ∀ c ∈ commits, ∃ mail_id mail, c.mail = some mail_id ∧
    c.after.mails.rows mail_id = some mail ∧ mail.raw_sha256 = c.work.submission.digest ∧
    Names c.before mail_id c.after ∧ Inbox c.after c.work c.mail
  same : ∀ a ∈ commits, ∀ b ∈ commits, a.work.queue = b.work.queue → a.mail = b.mail ∧
    a.work.submission.original_digest = b.work.submission.original_digest ∧
    a.work.submission.digest = b.work.submission.digest

theorem Invariant.exactlyOnce (hi : Invariant env w) : ExactlyOnce w.commits := by
  refine ⟨hi.once, fun c hc => (hi.proper c hc).one, ?_, ?_⟩
  · intro c hc
    obtain ⟨mail_id, mail, hmail, hrow, hraw, hnames⟩ := (hi.proper c hc).stored
    exact ⟨mail_id, mail, hmail, hrow, hraw, hnames, (hi.proper c hc).inbox⟩
  · intro a ha b hb hqueue
    obtain ⟨source, hsource, horiginal, hraw, _⟩ := (hi.traced a ha).source
    obtain ⟨source', hsource', horiginal', hraw', _⟩ := (hi.traced b hb).source
    rw [hqueue, hsource'] at hsource
    cases hsource
    exact ⟨hi.same a ha b hb hqueue, horiginal.symm.trans horiginal', hraw.symm.trans hraw'⟩

def rawBytes (text : String) : Bytes := text.toList.map (fun c => UInt8.ofNat c.toNat)

/-- Ana's mail to Bo, with a hidden copy to Zoe, who works elsewhere. -/
def anaMail : Bytes := rawBytes
  "From: ana@first.test\r\nTo: bo@first.test\r\nBcc: zoe@out.test\r\n\r\nHi\r\n"

/-- The copy that is stored. -/
def anaCopy : Bytes := rawBytes "From: ana@first.test\r\nTo: bo@first.test\r\n\r\nHi\r\n"

/-- The parser and the hash, on the two messages. -/
def sampleEnvironment : Environment where
  parse raw := {
    defects := false
    fields := [⟨"From", false, ["ana@first.test"]⟩, ⟨"To", false, ["bo@first.test"]⟩] ++
      if raw = anaMail then [⟨"Bcc", false, ["zoe@out.test"]⟩] else []
    attachments := 0
    content_ids := []
    spam_header := ""
    spam_result := ""
    virus_status := "" }
  sha256 raw :=
    if raw = anaMail then "90da33eda2ecc0b1dad884749544dba50446d81fa9e34dd130ca17dde3aba71f"
    else if raw = anaCopy then "ea005642a436f53dd444f0832d31ee987dba5904f5d570db62d5b4f60b150c96"
    else ""
  mail_inbound_max_message_bytes := 30000000

def relay : ProviderRow where
  id := "relay"
  company_id := "first"
  provider_type := "self_hosted"
  relay_host := "mx.first.test"
  relay_port := 25
  tls_mode := "starttls"
  from_address := none
  username := "relay"
  encrypted_password := ""
  dkim_domain := none
  dkim_selector := none
  encrypted_dkim_private_key := none
  active := true
  delivery_enabled := true
  last_test_status := .success
  last_test_message := ""
  last_connection_at := none
  last_connection_error := none
  updated_at := 0

/-- One company, where Ana and Bo work. -/
def sampleWorld : World where
  db := {
    directory := {
      users := (Table.empty.set "ana" ⟨"first", "ana@first.test", .active⟩).set
        "bo" ⟨"first", "bo@first.test", .active⟩
      accounts := (Table.empty.set "ana-account" ⟨"ana", "ana@first.test", .active⟩).set
        "bo-account" ⟨"bo", "bo@first.test", .active⟩
      credentials := Table.empty.set "ana-credential"
        ⟨"first", "ana", "ana@first.test", true, none⟩
      domains := Table.empty.set "first" "first.test"
      providers := Table.empty.set "relay" relay }
    messages := Table.empty
    recipients := Table.empty
    mails := Table.empty
    mail_recipients := Table.empty
    deliveries := Table.empty
    inbound := Table.empty
    inbound_recipients := Table.empty }
  sources := Locks.free
  sessions := fun _ => .idle none
  commits := []

theorem start_sampleWorld : (machine sampleEnvironment).Start sampleWorld :=
  ⟨rfl, rfl, rfl, rfl, fun _ => ⟨none, rfl⟩, rfl⟩

/-- The call for one recipient. -/
def anaCall (recipient : String) (now : Time) : Call :=
  ⟨"ana@first.test", recipient, "Queue123", anaMail, now⟩

/-- The statements of a call up to the choice of the provider. -/
def untilRoute (t : Nat) (recipient : String) (now : Time) : List Action :=
  [.ask t (anaCall recipient now), .know t (some ("ana-credential", "ana-account")), .claim t,
    .select t, .locate t, .place t, .route t]

/-- Bo gets the mail in his inbox, and Zoe behind the relay. The gateway then
asks for Bo once more, and the mail is deleted. -/
def mailedRun : Option World := (machine sampleEnvironment).run sampleWorld
  (untilRoute 1 "bo@first.test" 1 ++ [.ingest 1 (some "bo"), .commit 1 ⟨"m1", "r1", "d1", "i1"⟩] ++
    untilRoute 2 "zoe@out.test" 2 ++ [.commit 2 ⟨"m2", "r2", "d2", "i2"⟩,
      .ask 3 (anaCall "bo@first.test" 3), .know 3 (some ("ana-credential", "ana-account")),
      .claim 3, .select 3, .delete "m1"])

/-- Both commits refer to the first mail, and the third call found a duplicate. -/
example : (mailedRun.get (by decide +kernel)).commits.map (·.mail) = [some "m1", some "m1"] ∧
    (mailedRun.get (by decide +kernel)).sessions 3 = .idle (some (.ok ⟨true, "internal"⟩)) := by
  decide +kernel

end moaworks.mail_submission_operations

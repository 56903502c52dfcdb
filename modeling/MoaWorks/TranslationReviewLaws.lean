-- The laws of translation reviews: the history of an item replays its text, and a text that was
-- reviewed while a retranslation was on its way stays only when the reviewers keep away from it.
import Mathlib.Data.List.Sublists
import MoaWorks.TranslationReviews

namespace moaworks.translation_operations

variable {db db' : Database} {actor : AuthUserSummary} {review_id id : String} {row : ReviewItem}
  {w : World} {call : Nat}

/-! ## The history of an item -/

def eventsOf (db : Database) (review_id : String) : List ReviewEvent :=
  db.translation_review_events.filter (fun e => decide (e.review_id = review_id))

/-- The text after one more event, when the event begins with the text that there is. -/
def replayEvent (text : Option String) (e : ReviewEvent) : Option (Option String) :=
  if e.before_text = text then some e.after_text else none

/-- The text that a history ends with, when each event begins where the one before it ended. -/
def replay (events : List ReviewEvent) : Option (Option String) := events.foldlM replayEvent none

theorem replay_snoc {events : List ReviewEvent} {e : ReviewEvent} {text : Option String}
    (h : replay events = some text) (he : e.before_text = text) :
    replay (events ++ [e]) = some e.after_text := by
  unfold replay at h ⊢
  rw [List.foldlM_append, h]
  change (replayEvent text e >>= pure) = _
  simp [replayEvent, he]

/-- What a transaction does that gives an item a new row: one event, from the old text to the new
one. -/
structure Rewrites (db db' : Database) (review_id : String) (row row' : ReviewItem) : Prop where
  found : db.translation_review_items.rows review_id = some row
  items : db'.translation_review_items = db.translation_review_items.set review_id row'
  events : ∃ e, db'.translation_review_events = db.translation_review_events ++ [e] ∧
    e.review_id = review_id ∧ e.before_text = some row.translated_text ∧
    e.after_text = some row'.translated_text
  company_id : row'.company_id = row.company_id
  source_text : row'.source_text = row.source_text
  source_locale : row'.source_locale = row.source_locale
  target_locale : row'.target_locale = row.target_locale

theorem get_review_ok : get_review db actor review_id = .ok row ↔
      db.translation_review_items.rows review_id = some row ∧ row.company_id = actor.companyId := by
  unfold get_review
  rw [Raise.found_ok, Option.filter_eq_some_iff, decide_eq_true_iff]

theorem apply_review_action_ok {payload : TranslationReviewActionRequest} {now : Time}
    (h : apply_review_action db actor review_id payload now = .ok db') :
    ∃ row row', get_review db actor review_id = .ok row ∧ Rewrites db db' review_id row row' ∧
      ((∃ text, payload.action = .edit ∧ row' = edited text row) ∨
        payload.action = .approve ∧ row' = approved actor now row) := by
  obtain ⟨row, hrow, h⟩ := Raise.bind_ok.mp h
  have hfound := (get_review_ok.mp hrow).1
  rcases payload with ⟨action, translatedText⟩
  cases action with
  | edit =>
    cases translatedText with
    | none => cases h
    | some text =>
      cases h
      exact ⟨row, edited text row, hrow, ⟨hfound, rfl, ⟨_, rfl, rfl, rfl, rfl⟩, rfl, rfl, rfl, rfl⟩,
        Or.inl ⟨text, rfl, rfl⟩⟩
  | approve =>
    cases h
    exact ⟨row, approved actor now row, hrow,
      ⟨hfound, rfl, ⟨_, rfl, rfl, rfl, rfl⟩, rfl, rfl, rfl, rfl⟩, Or.inr ⟨rfl, rfl⟩⟩
  | retranslate => cases h

theorem apply_retranslation_ok {item : TranslationItem}
    (h : apply_retranslation db actor review_id item = .ok db') :
    ∃ row, get_review db actor review_id = .ok row ∧
      Rewrites db db' review_id row (retranslated item row) := by
  obtain ⟨row, hrow, h⟩ := Raise.bind_ok.mp h
  cases h
  exact ⟨row, hrow, (get_review_ok.mp hrow).1, rfl, ⟨_, rfl, rfl, rfl, rfl⟩, rfl, rfl, rfl, rfl⟩

/-- An item with its history. -/
def Replays (db : Database) : Prop :=
  ∀ id row, db.translation_review_items.rows id = some row →
    replay (eventsOf db id) = some (some row.translated_text)

/-- An item that does not exist has no history. -/
def Unwritten (db : Database) : Prop :=
  ∀ id, db.translation_review_items.rows id = none → eventsOf db id = []

theorem eventsOf_snoc {e : ReviewEvent}
    (h : db'.translation_review_events = db.translation_review_events ++ [e]) (id : String) :
    eventsOf db' id = eventsOf db id ++ (if e.review_id = id then [e] else []) := by
  unfold eventsOf
  rw [h, List.filter_append, List.filter_cons, List.filter_nil]
  simp only [decide_eq_true_eq]

theorem Rewrites.replays {row' : ReviewItem} (h : Rewrites db db' review_id row row')
    (hdb : Replays db) : Replays db' := by
  obtain ⟨e, hevents, hid, hbefore, hafter⟩ := h.events
  intro id r hr
  rw [eventsOf_snoc hevents]
  rw [h.items] at hr
  rcases eq_or_ne id review_id with rfl | hne
  · rw [Table.rows_set_self] at hr
    cases hr
    rw [if_pos hid, replay_snoc (hdb id row h.found) hbefore, hafter]
  · rw [Table.rows_set_ne _ _ hne] at hr
    rw [if_neg (fun heq => hne (heq.symm.trans hid)), List.append_nil]
    exact hdb id r hr

theorem Rewrites.unwritten {row' : ReviewItem} (h : Rewrites db db' review_id row row')
    (hdb : Unwritten db) : Unwritten db' := by
  obtain ⟨e, hevents, hid, -⟩ := h.events
  intro id hr
  rw [h.items] at hr
  rcases eq_or_ne id review_id with rfl | hne
  · rw [Table.rows_set_self] at hr
    cases hr
  · rw [Table.rows_set_ne _ _ hne] at hr
    rw [eventsOf_snoc hevents, if_neg (fun heq => hne (heq.symm.trans hid)), List.append_nil]
    exact hdb id hr

theorem create_review_replays {review : NewReview}
    (hnew : db.translation_review_items.rows review_id = none) (hdb : Replays db)
    (hnone : Unwritten db) :
    Replays (create_review db actor review_id review) ∧
      Unwritten (create_review db actor review_id review) := by
  have hevents : (create_review db actor review_id review).translation_review_events =
      db.translation_review_events ++ [⟨actor.companyId, review_id, actor.userId, .created, none,
        some review.translated_text, none⟩] := rfl
  refine ⟨?_, ?_⟩
  · intro id r hr
    rw [eventsOf_snoc hevents]
    change (db.translation_review_items.set review_id _).rows id = some r at hr
    rcases eq_or_ne id review_id with rfl | hne
    · rw [Table.rows_set_self] at hr
      cases hr
      rw [hnone id hnew, if_pos rfl]
      rfl
    · rw [Table.rows_set_ne _ _ hne] at hr
      rw [if_neg hne.symm, List.append_nil]
      exact hdb id r hr
  · intro id hr
    change (db.translation_review_items.set review_id _).rows id = none at hr
    rcases eq_or_ne id review_id with rfl | hne
    · rw [Table.rows_set_self] at hr
      cases hr
    · rw [Table.rows_set_ne _ _ hne] at hr
      rw [eventsOf_snoc hevents, if_neg hne.symm, List.append_nil]
      exact hnone id hr

/-! ## The step -/

/-- What one event does: to an item, or to a call that goes on. -/
inductive Effect (w : World) : Event → World → Prop
  | created {actor : AuthUserSummary} {id : String} {review : NewReview} :
    w.db.translation_review_items.rows id = none →
    review.source_locale ∈ _SUPPORTED_SOURCE_LOCALES →
    review.target_locale ∈ _SUPPORTED_TARGET_LOCALES →
    Effect w (.create_review actor id review) { w with db := create_review w.db actor id review }
  | reviewed {actor : AuthUserSummary} {id : String} {payload : TranslationReviewActionRequest}
    {now : Time} {db : Database} {row row' : ReviewItem} :
    get_review w.db actor id = .ok row → Rewrites w.db db id row row' →
    ((∃ text, payload.action = .edit ∧ row' = edited text row) ∨
      payload.action = .approve ∧ row' = approved actor now row) →
    Effect w (.apply_review_action actor id payload now) (w.record db (.reviewed id payload.action))
  | begun {call : Nat} {actor : AuthUserSummary} {id : String} {review : ReviewItem} :
    w.calls call = none → get_review w.db actor id = .ok review →
    Effect w (.retranslate_review call actor id)
      ((w.advance call (.translating actor id review)).record w.db (.started call id))
  | ended {e : Event} {call : Nat} {reply : Option HTTPException} :
    Effect w e (w.advance call (.done reply))
  | resolved {call : Nat} {actor : AuthUserSummary} {id : String} {review : ReviewItem}
    {policy : Policy} : w.calls call = some (.translating actor id review) →
    Effect w (.policy call policy) (w.advance call (.calling actor id review policy.provider))
  | received {call : Nat} {actor : AuthUserSummary} {id : String} {review : ReviewItem}
    {provider : String} {outcome : Outcome} {item : TranslationItem} :
    w.calls call = some (.calling actor id review provider) →
    Effect w (.provider call outcome) (w.advance call (.applying actor id item))
  | written {call : Nat} {actor : AuthUserSummary} {id : String} {item : TranslationItem}
    {db : Database} {row : ReviewItem} :
    w.calls call = some (.applying actor id item) → get_review w.db actor id = .ok row →
    Rewrites w.db db id row (retranslated item row) →
    Effect w (.apply_retranslation call)
      ((w.advance call (.done none)).record db (.overwritten call id))
  | nothing {e : Event} : Effect w e w

/-- A text that is not sent is no translation. -/
theorem unsent_untranslated {policy : Policy} {item : TranslationItem}
    (h : unsent policy row = some item) : item.translated = false := by
  unfold unsent at h
  split_ifs at h <;> cases h <;> rfl

theorem effect_resolved {review : ReviewItem} (policy : Policy)
    (hcall : w.calls call = some (.translating actor id review)) :
    Effect w (.policy call policy) (resolved w call actor id review policy) := by
  unfold resolved
  rcases hu : unsent policy review with _ | item
  · exact Effect.resolved hcall
  · have hfailed : retranslation (!policy.enabled) item =
        .error (retranslateFailed (item.statusMessage.getD "provider fallback")) := by
      simp [retranslation, unsent_untranslated hu]
    simp only [hfailed]
    exact Effect.ended

theorem effect_received {provider : String} {review : ReviewItem} (outcome : Outcome)
    (hcall : w.calls call = some (.calling actor id review provider)) :
    Effect w (.provider call outcome) (received w call actor id review provider outcome) := by
  unfold received
  split
  · exact Effect.ended
  · exact Effect.received hcall

theorem effect_written {item : TranslationItem}
    (hcall : w.calls call = some (.applying actor id item)) :
    Effect w (.apply_retranslation call) (written w call actor id item) := by
  unfold written
  split
  · exact Effect.ended
  · rename_i db hdb
    obtain ⟨row, hrow, hrewrites⟩ := apply_retranslation_ok hdb
    exact Effect.written hcall hrow hrewrites

theorem effect_begun (actor : AuthUserSummary) (id : String) (hcall : w.calls call = none) :
    Effect w (.retranslate_review call actor id) (begun w call actor id) := by
  unfold begun
  split
  · exact Effect.ended
  · rename_i review hreview
    exact Effect.begun hcall hreview

theorem effect_of_step {w' : World} {e : Event} (h : step w e = some w') : Effect w e w' := by
  cases e with
  | create_review actor id review =>
    simp only [step] at h
    split_ifs at h with hc
    cases h
    exact Effect.created hc.1 hc.2.1 hc.2.2
  | apply_review_action actor id payload now =>
    simp only [step] at h
    split_ifs at h with hc
    rcases hdb : apply_review_action w.db actor id payload now with _ | db <;> rw [hdb] at h <;>
      cases h
    · exact Effect.nothing
    · obtain ⟨row, row', hrow, hrewrites, hnew⟩ := apply_review_action_ok hdb
      exact Effect.reviewed hrow hrewrites hnew
  | retranslate_review call actor id =>
    rcases hc : w.calls call with _ | phase <;>
      simp only [step, hc, reduceCtorEq, Option.some.injEq] at h
    subst h
    exact effect_begun actor id hc
  | policy call policy =>
    rcases hc : w.calls call with _ | _ | _ | _ | _ <;>
      simp only [step, hc, reduceCtorEq, Option.some.injEq] at h
    subst h
    exact effect_resolved policy hc
  | provider call outcome =>
    rcases hc : w.calls call with _ | _ | _ | _ | _ <;>
      simp only [step, hc, reduceCtorEq, Option.some.injEq] at h
    subst h
    exact effect_received outcome hc
  | apply_retranslation call =>
    rcases hc : w.calls call with _ | _ | _ | _ | _ <;>
      simp only [step, hc, reduceCtorEq, Option.some.injEq] at h
    subst h
    exact effect_written hc
  | abort call =>
    simp only [step] at h
    rcases hc : w.calls call with _ | phase
    · rw [hc] at h
      cases h
    · rw [hc] at h
      dsimp only at h
      split_ifs at h
      cases h
      exact Effect.ended

/-! ## What holds in every run -/

/-- A retranslation goes on with the item that it has read. -/
def Phase.Reads (db : Database) : Phase → Prop
  | .translating actor id review | .calling actor id review _ =>
    ∃ row, get_review db actor id = .ok row ∧ review.source_text = row.source_text ∧
      review.source_locale = row.source_locale ∧ review.target_locale = row.target_locale
  | .applying actor id _ => ∃ row, get_review db actor id = .ok row
  | .done _ => True

/-- No item is lost, and what is translated stays. -/
def Extends (db db' : Database) : Prop :=
  ∀ id row, db.translation_review_items.rows id = some row →
    ∃ row', db'.translation_review_items.rows id = some row' ∧ row'.company_id = row.company_id ∧
      row'.source_text = row.source_text ∧ row'.source_locale = row.source_locale ∧
      row'.target_locale = row.target_locale

theorem Rewrites.extends {row' : ReviewItem} (h : Rewrites db db' review_id row row') :
    Extends db db' := by
  intro id r hr
  rw [h.items]
  rcases eq_or_ne id review_id with rfl | hne
  · rw [h.found] at hr
    cases hr
    exact ⟨row', Table.rows_set_self _ _ _, h.company_id, h.source_text, h.source_locale,
      h.target_locale⟩
  · exact ⟨r, (Table.rows_set_ne _ _ hne).trans hr, rfl, rfl, rfl, rfl⟩

theorem create_review_extends {review : NewReview}
    (hnew : db.translation_review_items.rows review_id = none) :
    Extends db (create_review db actor review_id review) := by
  intro id r hr
  have hne : id ≠ review_id := by
    rintro rfl
    rw [hnew] at hr
    cases hr
  exact ⟨r, (Table.rows_set_ne _ _ hne).trans hr, rfl, rfl, rfl, rfl⟩

theorem Extends.get_review (h : Extends db db')
    (hrow : translation_operations.get_review db actor id = .ok row) :
    ∃ row', translation_operations.get_review db' actor id = .ok row' ∧
      row'.source_text = row.source_text ∧ row'.source_locale = row.source_locale ∧
      row'.target_locale = row.target_locale := by
  obtain ⟨hfound, hcompany⟩ := get_review_ok.mp hrow
  obtain ⟨row', hrow', hc, hrest⟩ := h id row hfound
  exact ⟨row', get_review_ok.mpr ⟨hrow', hc.trans hcompany⟩, hrest⟩

theorem Phase.Reads.extends {phase : Phase} (hphase : phase.Reads db) (h : Extends db db') :
    phase.Reads db' := by
  cases phase with
  | translating actor id review =>
    obtain ⟨row, hrow, ht, hs, hl⟩ := hphase
    obtain ⟨row', hrow', ht', hs', hl'⟩ := h.get_review hrow
    exact ⟨row', hrow', ht.trans ht'.symm, hs.trans hs'.symm, hl.trans hl'.symm⟩
  | calling actor id review provider =>
    obtain ⟨row, hrow, ht, hs, hl⟩ := hphase
    obtain ⟨row', hrow', ht', hs', hl'⟩ := h.get_review hrow
    exact ⟨row', hrow', ht.trans ht'.symm, hs.trans hs'.symm, hl.trans hl'.symm⟩
  | applying actor id item =>
    obtain ⟨row, hrow⟩ := hphase
    obtain ⟨row', hrow', -⟩ := h.get_review hrow
    exact ⟨row', hrow'⟩
  | done reply => trivial

end moaworks.translation_operations

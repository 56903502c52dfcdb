-- Runs of reviewers and retranslations: what holds of every item, and which actions leave a
-- retranslation that overwrites what a reviewer has done.
import MoaWorks.TranslationReviewLaws

namespace moaworks.translation_operations

variable {c : Nat} {w : World} {id : String} {row : ReviewItem} {db : Database}
  {actor : AuthUserSummary} {e : Event}

/-! ## What holds in every run -/

structure Inv (w : World) : Prop where
  replays : Replays w.db
  unwritten : Unwritten w.db
  locales : ∀ id row, w.db.translation_review_items.rows id = some row →
    row.source_locale ∈ _SUPPORTED_SOURCE_LOCALES ∧ row.target_locale ∈ _SUPPORTED_TARGET_LOCALES
  reads : ∀ c phase, w.calls c = some phase → phase.Reads w.db
  started : ∀ c phase id, w.calls c = some phase → phase.review_id = some id →
    Entry.started c id ∈ w.log
  fresh : ∀ c, w.calls c = none → ∀ id, Entry.started c id ∉ w.log

theorem advance_self (w : World) (c : Nat) (phase : Phase) :
    (w.advance c phase).calls c = some phase := if_pos rfl

theorem advance_ne (w : World) {j : Nat} (phase : Phase) (h : j ≠ c) :
    (w.advance c phase).calls j = w.calls j := if_neg h

/-- A call that goes on, or ends. -/
theorem Inv.advance {phase : Phase} (h : Inv w) (hreads : phase.Reads w.db)
    (hstarted : ∀ id, phase.review_id = some id → Entry.started c id ∈ w.log) :
    Inv (w.advance c phase) := by
  refine { h with reads := ?_, started := ?_, fresh := ?_ }
  · intro j x hx
    rcases eq_or_ne j c with rfl | hne
    · rw [advance_self] at hx
      cases hx
      exact hreads
    · exact h.reads j x ((advance_ne w phase hne).symm.trans hx)
  · intro j x id hx hid
    rcases eq_or_ne j c with rfl | hne
    · rw [advance_self] at hx
      cases hx
      exact hstarted id hid
    · exact h.started j x id ((advance_ne w phase hne).symm.trans hx) hid
  · intro j hj
    rcases eq_or_ne j c with rfl | hne
    · rw [advance_self] at hj
      cases hj
    · exact h.fresh j ((advance_ne w phase hne).symm.trans hj)

/-- A new row for an item, and an entry that starts nothing. -/
theorem Inv.rewrite {row' : ReviewItem} {entry : Entry} (h : Inv w)
    (hrewrites : Rewrites w.db db id row row') (hentry : ∀ c id, entry ≠ .started c id) :
    Inv (w.record db entry) where
  replays := hrewrites.replays h.replays
  unwritten := hrewrites.unwritten h.unwritten
  locales := by
    intro j r hr
    change db.translation_review_items.rows j = some r at hr
    rw [hrewrites.items] at hr
    rcases eq_or_ne j id with rfl | hne
    · rw [Table.rows_set_self] at hr
      cases hr
      rw [hrewrites.source_locale, hrewrites.target_locale]
      exact h.locales j row hrewrites.found
    · rw [Table.rows_set_ne _ _ hne] at hr
      exact h.locales j r hr
  reads c phase hc := (h.reads c phase hc).extends hrewrites.extends
  started c phase j hc hj := List.mem_append_left _ (h.started c phase j hc hj)
  fresh c hc j hmem := by
    rcases List.mem_append.mp hmem with hold | hnew
    · exact h.fresh c hc j hold
    · exact hentry c j (List.mem_singleton.mp hnew).symm

theorem Inv.create {review : NewReview} (h : Inv w)
    (hnew : w.db.translation_review_items.rows id = none)
    (hsource : review.source_locale ∈ _SUPPORTED_SOURCE_LOCALES)
    (htarget : review.target_locale ∈ _SUPPORTED_TARGET_LOCALES) :
    Inv { w with db := create_review w.db actor id review } := by
  obtain ⟨hreplays, hunwritten⟩ := create_review_replays hnew h.replays h.unwritten
  refine ⟨hreplays, hunwritten, ?_, ?_, h.started, h.fresh⟩
  · intro j r hr
    change (w.db.translation_review_items.set id _).rows j = some r at hr
    rcases eq_or_ne j id with rfl | hne
    · rw [Table.rows_set_self] at hr
      cases hr
      exact ⟨hsource, htarget⟩
    · rw [Table.rows_set_ne _ _ hne] at hr
      exact h.locales j r hr
  · exact fun c phase hc => (h.reads c phase hc).extends (create_review_extends hnew)

theorem Inv.begin {review : ReviewItem} (h : Inv w) (hc : w.calls c = none)
    (hreview : get_review w.db actor id = .ok review) :
    Inv ((w.advance c (.translating actor id review)).record w.db (.started c id)) := by
  refine ⟨h.replays, h.unwritten, h.locales, ?_, ?_, ?_⟩
  · intro j x hx
    rcases eq_or_ne j c with rfl | hne
    · cases (advance_self w j _).symm.trans hx
      exact ⟨review, hreview, rfl, rfl, rfl⟩
    · exact h.reads j x ((advance_ne w _ hne).symm.trans hx)
  · intro j x id' hx hid
    rcases eq_or_ne j c with rfl | hne
    · cases (advance_self w j _).symm.trans hx
      cases hid
      exact List.mem_append_right _ (List.mem_singleton_self _)
    · exact List.mem_append_left _ (h.started j x id' ((advance_ne w _ hne).symm.trans hx) hid)
  · intro j hj id' hmem
    rcases eq_or_ne j c with rfl | hne
    · cases (advance_self w j _).symm.trans hj
    · rcases List.mem_append.mp hmem with hold | hnew
      · exact h.fresh j ((advance_ne w _ hne).symm.trans hj) id' hold
      · cases List.mem_singleton.mp hnew
        exact hne rfl

theorem Inv.step {w' : World} (h : Inv w) (hstep : translation_operations.step w e = some w') :
    Inv w' := by
  cases effect_of_step hstep with
  | created hnew hsource htarget => exact h.create hnew hsource htarget
  | reviewed hrow hrewrites => exact h.rewrite hrewrites nofun
  | begun hc hreview => exact h.begin hc hreview
  | ended => exact h.advance trivial nofun
  | resolved hc =>
    have hreads := h.reads _ _ hc
    have hstarted := fun id hid => h.started _ _ id hc hid
    exact h.advance hreads hstarted
  | received hc =>
    obtain ⟨row, hrow, -⟩ := h.reads _ _ hc
    have hstarted := fun id hid => h.started _ _ id hc hid
    exact h.advance ⟨row, hrow⟩ hstarted
  | @written c _ _ _ _ _ hc hrow hrewrites =>
    have hended : Inv (w.advance c (.done none)) := h.advance trivial nofun
    exact hended.rewrite hrewrites nofun
  | nothing => exact h

theorem inv_of_reachable (h : machine.Reachable w) : Inv w := by
  refine Machine.Reachable.invariant ?_ (fun w e w' hw hstep => hw.step hstep) h
  rintro w ⟨hitems, hevents, hcalls, hlog⟩
  have hnone : ∀ id, w.db.translation_review_items.rows id = none := by
    intro id
    rw [hitems]
    rfl
  refine ⟨?_, ?_, ?_, ?_, ?_, ?_⟩
  · exact fun id row hrow => nomatch (hnone id).symm.trans hrow
  · intro id _
    unfold eventsOf
    rw [hevents]
    rfl
  · exact fun id row hrow => nomatch (hnone id).symm.trans hrow
  · intro c phase hc
    rw [hcalls] at hc
    cases hc
  · intro c phase id hc
    rw [hcalls] at hc
    cases hc
  · intro c _ id hmem
    rw [hlog] at hmem
    cases hmem

/-! ## Runs whose reviewers keep away from a retranslation -/

/-- The columns of the approval are set when the item is approved, and only then. -/
def ApprovedExactly (db : Database) : Prop :=
  ∀ id row, db.translation_review_items.rows id = some row →
    (row.approved_by_user_id.isSome ↔ row.status = .approved) ∧
    (row.approved_at.isSome ↔ row.status = .approved)

/-- No retranslation has overwritten an item that was reviewed after it had started. -/
def Kept (log : List Entry) : Prop :=
  ∀ c id action, ¬ [Entry.started c id, .reviewed id action, .overwritten c id].Sublist log

/-- A retranslation of the item is on its way. -/
def InFlight (w : World) (id : String) : Prop :=
  ∃ c phase, w.calls c = some phase ∧ phase.review_id = some id

/-- A reviewer acts on an item of the company only while no retranslation of it is on its way, and
does not edit it when it is approved. -/
def Sound (w : World) : Event → Prop
  | .apply_review_action actor id payload _ => ∀ row, get_review w.db actor id = .ok row →
    ¬ InFlight w id ∧ (payload.action = .edit → row.status ≠ .approved)
  | _ => True

structure Fair (w : World) : Prop where
  approved : ApprovedExactly w.db
  kept : Kept w.log
  untouched : ∀ c phase id, w.calls c = some phase → phase.review_id = some id →
    ∀ action, ¬ [Entry.started c id, .reviewed id action].Sublist w.log

theorem sublist_snoc {α : Type} {a x : α} {l m : List α} :
    (m ++ [a]).Sublist (l ++ [x]) ↔ (m ++ [a]).Sublist l ∨ a = x ∧ m.Sublist l := by
  have hrev : ∀ (k : List α) (b : α), (k ++ [b]).reverse = b :: k.reverse := by
    intro k b
    rw [List.reverse_append, List.reverse_singleton, List.singleton_append]
  rw [← List.reverse_sublist, hrev, hrev, List.sublist_cons_iff]
  constructor
  · rintro (hold | ⟨r, heq, hr⟩)
    · rw [← hrev] at hold
      exact Or.inl (List.reverse_sublist.mp hold)
    · cases heq
      exact Or.inr ⟨rfl, List.reverse_sublist.mp hr⟩
  · rintro (hold | ⟨rfl, hm⟩)
    · rw [← hrev]
      exact Or.inl (List.reverse_sublist.mpr hold)
    · exact Or.inr ⟨_, rfl, List.reverse_sublist.mpr hm⟩

/-- The pattern of an overwritten review, one entry later. -/
theorem overwritten_snoc {action : Action} {log : List Entry} {x : Entry} :
    [Entry.started c id, .reviewed id action, .overwritten c id].Sublist (log ++ [x]) ↔
      [Entry.started c id, .reviewed id action, .overwritten c id].Sublist log ∨
      .overwritten c id = x ∧ [Entry.started c id, .reviewed id action].Sublist log :=
  sublist_snoc (m := [Entry.started c id, .reviewed id action])

theorem reviewed_snoc {action : Action} {log : List Entry} {x : Entry} :
    [Entry.started c id, .reviewed id action].Sublist (log ++ [x]) ↔
      [Entry.started c id, .reviewed id action].Sublist log ∨
      .reviewed id action = x ∧ [Entry.started c id].Sublist log :=
  sublist_snoc (m := [Entry.started c id])

theorem kept_snoc {log : List Entry} {x : Entry} (h : Kept log)
    (hx : ∀ c id, .overwritten c id = x →
      ∀ action, ¬ [Entry.started c id, .reviewed id action].Sublist log) : Kept (log ++ [x]) := by
  intro c id action hsub
  rcases overwritten_snoc.mp hsub with hold | ⟨hlast, hrest⟩
  · exact h c id action hold
  · exact hx c id hlast action hrest

theorem ApprovedExactly.set {db' : Database} (h : ApprovedExactly db)
    (hitems : db'.translation_review_items = db.translation_review_items.set id row)
    (hrow : (row.approved_by_user_id.isSome ↔ row.status = .approved) ∧
      (row.approved_at.isSome ↔ row.status = .approved)) : ApprovedExactly db' := by
  intro j r hr
  rw [hitems] at hr
  rcases eq_or_ne j id with rfl | hne
  · rw [Table.rows_set_self] at hr
    cases hr
    exact hrow
  · rw [Table.rows_set_ne _ _ hne] at hr
    exact h j r hr

/-- A call that goes on for the same item, or ends. -/
theorem Fair.advance {phase : Phase} (h : Fair w) (hold : ∀ id, phase.review_id = some id →
      ∃ old, w.calls c = some old ∧ old.review_id = some id) : Fair (w.advance c phase) := by
  refine { h with untouched := ?_ }
  intro j x id hx hid
  rcases eq_or_ne j c with rfl | hne
  · cases (advance_self w j _).symm.trans hx
    obtain ⟨old, hcall, hread⟩ := hold id hid
    exact h.untouched j old id hcall hread
  · exact h.untouched j x id ((advance_ne w phase hne).symm.trans hx) hid

theorem Fair.review {payload : TranslationReviewActionRequest} {now : Time} {row' : ReviewItem}
    (h : Fair w) (hrewrites : Rewrites w.db db id row row')
    (hnew : (∃ text, payload.action = .edit ∧ row' = edited text row) ∨
      payload.action = .approve ∧ row' = translation_operations.approved actor now row)
    (hflight : ¬ InFlight w id) (hedit : payload.action = .edit → row.status ≠ .approved) :
    Fair (w.record db (.reviewed id payload.action)) := by
  refine ⟨?_, ?_, ?_⟩
  · refine h.approved.set hrewrites.items ?_
    obtain ⟨hby, hat⟩ := h.approved id row hrewrites.found
    rcases hnew with ⟨text, haction, rfl⟩ | ⟨haction, rfl⟩
    · have hstatus := hedit haction
      exact ⟨⟨fun hs => absurd (hby.mp hs) hstatus, nofun⟩,
        ⟨fun hs => absurd (hat.mp hs) hstatus, nofun⟩⟩
    · exact ⟨⟨fun _ => rfl, fun _ => rfl⟩, ⟨fun _ => rfl, fun _ => rfl⟩⟩
  · exact kept_snoc h.kept nofun
  · intro c phase j hc hj action hsub
    rcases reviewed_snoc.mp hsub with hold | ⟨hlast, -⟩
    · exact h.untouched c phase j hc hj action hold
    · cases hlast
      exact hflight ⟨c, phase, hc, hj⟩

theorem Fair.begin {review : ReviewItem} (h : Fair w) (hfresh : ∀ id, Entry.started c id ∉ w.log) :
    Fair ((w.advance c (.translating actor id review)).record w.db (.started c id)) := by
  refine ⟨h.approved, kept_snoc h.kept nofun, ?_⟩
  intro j x id' hx hid action hsub
  rcases reviewed_snoc.mp hsub with hold | ⟨hlast, -⟩
  · rcases eq_or_ne j c with rfl | hne
    · exact hfresh id' (hold.subset List.mem_cons_self)
    · exact h.untouched j x id' ((advance_ne w _ hne).symm.trans hx) hid action hold
  · cases hlast

theorem Fair.write {item : TranslationItem} (h : Fair w)
    (hc : w.calls c = some (.applying actor id item))
    (hrewrites : Rewrites w.db db id row (retranslated item row)) :
    Fair ((w.advance c (.done none)).record db (.overwritten c id)) := by
  refine ⟨?_, ?_, ?_⟩
  · exact h.approved.set hrewrites.items ⟨⟨nofun, nofun⟩, ⟨nofun, nofun⟩⟩
  · refine kept_snoc h.kept ?_
    rintro _ _ ⟨⟩
    exact h.untouched c _ id hc rfl
  · intro j x id' hx hid action hsub
    have hended : Fair (w.advance c (.done none)) := h.advance nofun
    rcases reviewed_snoc.mp hsub with hold | ⟨hlast, -⟩
    · exact hended.untouched j x id' hx hid action hold
    · cases hlast

theorem Fair.step {w' : World} (h : Fair w) (hinv : Inv w) (hsound : Sound w e)
    (hstep : translation_operations.step w e = some w') : Fair w' := by
  cases effect_of_step hstep with
  | created =>
    exact { h with approved := h.approved.set rfl ⟨⟨nofun, nofun⟩, ⟨nofun, nofun⟩⟩ }
  | reviewed hrow hrewrites hnew =>
    obtain ⟨hflight, hedit⟩ := hsound _ hrow
    exact h.review hrewrites hnew hflight hedit
  | begun hc => exact h.begin (hinv.fresh _ hc)
  | ended => exact h.advance nofun
  | resolved hc => exact h.advance (fun id hid => ⟨_, hc, hid⟩)
  | received hc => exact h.advance (fun id hid => ⟨_, hc, hid⟩)
  | written hc hrow hrewrites => exact h.write hc hrewrites
  | nothing => exact h

theorem fair_of_reach (h : machine.Reach Sound w) : Fair w := by
  refine Machine.Reach.invariant ?_ ?_ h
  · rintro w ⟨hitems, -, hcalls, hlog⟩
    refine ⟨?_, ?_, ?_⟩
    · intro id row hrow
      rw [hitems] at hrow
      cases hrow
    · intro c id action hsub
      rw [hlog] at hsub
      cases hsub
    · intro c phase id hc
      rw [hcalls] at hc
      cases hc
  · intro w e w' hr hw hsound hstep
    exact hw.step (inv_of_reachable hr.reachable) hsound hstep

/-! ## An action that is not sound -/

theorem machine_step (w : World) (e : Event) : machine.step w e = step w e := rfl

theorem run_next {w1 w2 : World} {es : List Event} (h : machine.step w e = some w1)
    (hrun : machine.run w1 es = some w2) : machine.run w (e :: es) = some w2 := by
  unfold Machine.run at hrun ⊢
  rw [List.foldlM_cons, h]
  exact hrun

theorem normalized_source : ∀ l ∈ _SUPPORTED_SOURCE_LOCALES,
    _normalize_locale l ∈ _SUPPORTED_SOURCE_LOCALES := by decide

theorem normalized_target : ∀ l ∈ _SUPPORTED_TARGET_LOCALES,
    _normalize_locale l ∈ _SUPPORTED_TARGET_LOCALES := by decide

/-- The call writes what it has. -/
theorem overwrites_applying {item : TranslationItem}
    (hc : w.calls c = some (.applying actor id item)) (hrow : get_review w.db actor id = .ok row) :
    ∃ es w', machine.run w es = some w' ∧ w'.log = w.log ++ [.overwritten c id] := by
  have happly : apply_retranslation w.db actor id item = .ok (_review_event
      (setItem w.db id (retranslated item row)) actor id .retranslate (some row.translated_text)
      (some item.translatedText) (some (item.provider, item.model))) := by
    unfold apply_retranslation
    rw [hrow]
    rfl
  have hstep : machine.step w (.apply_retranslation c) = some (written w c actor id item) := by
    rw [machine_step]
    simp only [step, hc]
  refine ⟨[.apply_retranslation c], written w c actor id item, run_next hstep rfl, ?_⟩
  unfold written
  rw [happly]
  rfl

theorem overwrites_calling {provider : String} {review : ReviewItem} {result : ProviderResult}
    (hc : w.calls c = some (.calling actor id review provider))
    (hrow : get_review w.db actor id = .ok row)
    (hresult : result.translated_text ≠ review.source_text) :
    ∃ es w', machine.run w es = some w' ∧ w'.log = w.log ++ [.overwritten c id] := by
  have htaken : retranslation (answered provider review.source_text (.ok result)).1
      (answered provider review.source_text (.ok result)).2 =
      .ok (answered provider review.source_text (.ok result)).2 := by
    simp [retranslation, answered, hresult]
  have hstep : machine.step w (.provider c (.ok result)) = some (w.advance c
      (.applying actor id (answered provider review.source_text (.ok result)).2)) := by
    rw [machine_step]
    simp only [step, hc, received, htaken]
  obtain ⟨es, w', hrun, hlog⟩ := overwrites_applying (advance_self w c _) hrow
  exact ⟨_, w', run_next hstep hrun, hlog⟩

theorem step_policy {review : ReviewItem} {policy : Policy}
    (hc : w.calls c = some (.translating actor id review)) (hunsent : unsent policy review = none) :
    machine.step w (.policy c policy) =
      some (w.advance c (.calling actor id review policy.provider)) := by
  rw [machine_step]
  unfold step
  simp only [hc]
  unfold resolved
  rw [hunsent]

/-- A retranslation that is on its way can still overwrite its item. -/
theorem overwrites_of_flight {phase : Phase} {result : ProviderResult} (h : Inv w)
    (hc : w.calls c = some phase) (hid : phase.review_id = some id)
    (hrow : w.db.translation_review_items.rows id = some row)
    (hresult : result.translated_text ≠ row.source_text) :
    ∃ es w', machine.run w es = some w' ∧ w'.log = w.log ++ [.overwritten c id] := by
  have hreads := h.reads c phase hc
  cases phase with
  | translating actor id review =>
    cases hid
    obtain ⟨row', hfound, htext, hsource, htarget⟩ := hreads
    cases hrow.symm.trans (get_review_ok.mp hfound).1
    obtain ⟨hs, ht⟩ := h.locales id row hrow
    have hunsent : unsent ⟨true, true, "openai"⟩ review = none := by
      have hsent : (!true || !true) = false := by decide
      simp only [unsent, hsource, htarget, normalized_source _ hs, normalized_target _ ht, hsent,
        not_true_eq_false, if_false, reduceCtorEq]
    have hstep := step_policy hc hunsent
    obtain ⟨es, w', hrun, hlog⟩ := overwrites_calling (advance_self w c _) hfound (htext ▸ hresult)
    exact ⟨_, w', run_next hstep hrun, hlog⟩
  | calling actor id review provider =>
    cases hid
    obtain ⟨row', hfound, htext, -⟩ := hreads
    cases hrow.symm.trans (get_review_ok.mp hfound).1
    exact overwrites_calling hc hfound (htext ▸ hresult)
  | applying actor id item =>
    cases hid
    obtain ⟨row', hfound⟩ := hreads
    exact overwrites_applying hc hfound
  | done reply => cases hid

theorem apply_review_action_of_found {payload : TranslationReviewActionRequest} (now : Time)
    (hrow : get_review db actor id = .ok row) (hvalid : payload.valid)
    (haction : payload.action ≠ .retranslate) :
    ∃ db', apply_review_action db actor id payload now = .ok db' := by
  rcases payload with ⟨action, translatedText⟩
  unfold apply_review_action
  rw [hrow]
  cases action with
  | edit =>
    cases translatedText with
    | none => cases hvalid
    | some text => exact ⟨_, rfl⟩
  | approve => exact ⟨_, rfl⟩
  | retranslate => exact absurd rfl haction

/-- An edit of an approved item leaves its approval behind, and an action on an item whose
retranslation is on its way can still be overwritten. -/
theorem violated_of_unsound {w1 : World} (h : Inv w) (hfair : Fair w) (hsound : ¬ Sound w e)
    (hstep : machine.step w e = some w1) :
    ¬ ApprovedExactly w1.db ∨ ∃ id row, w.db.translation_review_items.rows id = some row ∧
      ∀ result : ProviderResult, result.translated_text ≠ row.source_text →
        ∃ es w2, machine.run w1 es = some w2 ∧ ¬ Kept w2.log := by
  cases e with
  | apply_review_action actor id payload now =>
    have hstep : step w (.apply_review_action actor id payload now) = some w1 := hstep
    have hinv1 : Inv w1 := h.step hstep
    simp only [step] at hstep
    split_ifs at hstep with hc
    simp only [Sound, not_forall] at hsound
    obtain ⟨row, hrow, hnot⟩ := hsound
    obtain ⟨db, hdb⟩ := apply_review_action_of_found now hrow hc.1 hc.2
    obtain ⟨row0, row', hrow0, hrewrites, hnew⟩ := apply_review_action_ok hdb
    cases hrow.symm.trans hrow0
    rw [hdb] at hstep
    cases hstep
    by_cases hflight : InFlight w id
    · obtain ⟨c, phase, hcall, hid⟩ := hflight
      refine Or.inr ⟨id, row, hrewrites.found, fun result hresult => ?_⟩
      have hrow' : db.translation_review_items.rows id = some row' := by
        rw [hrewrites.items, Table.rows_set_self]
      have hfree : result.translated_text ≠ row'.source_text := hrewrites.source_text ▸ hresult
      obtain ⟨es, w2, hrun, hlog⟩ := overwrites_of_flight hinv1 hcall hid hrow' hfree
      refine ⟨es, w2, hrun, fun hkept => hkept c id payload.action ?_⟩
      rw [hlog]
      have hstarted : [Entry.started c id].Sublist w.log :=
        List.singleton_sublist.mpr (h.started c phase id hcall hid)
      exact overwritten_snoc.mpr (Or.inr ⟨rfl, reviewed_snoc.mpr (Or.inr ⟨rfl, hstarted⟩)⟩)
    · left
      intro hexact
      have hedit : payload.action = .edit ∧ row.status = .approved := by
        by_contra hno
        exact hnot ⟨hflight, fun ha hs => hno ⟨ha, hs⟩⟩
      rcases hnew with ⟨text, -, rfl⟩ | ⟨haction, -⟩
      · have hset := (hexact id _ ((congrArg (Table.rows · id) hrewrites.items).trans
          (Table.rows_set_self _ _ _))).1
        have hby : row.approved_by_user_id.isSome := (hfair.approved id row hrewrites.found).1.mpr hedit.2
        cases hset.mp hby
      · cases haction.symm.trans hedit.1
  | _ => exact absurd trivial hsound

/-! ## The law of the reviews -/

/-- The history of an item always replays its text. While the reviewers act only on items that no
retranslation is on its way for, and edit none that is approved, the approval stands exactly with
the approved items and no review is overwritten; every other action can end otherwise. -/
theorem reviews_keep_decisions (w : World) (h : machine.Reach Sound w) :
    ApprovedExactly w.db ∧ Kept w.log ∧
    (∀ w', machine.Later w w' → Replays w'.db) ∧
    (∀ e w1, machine.step w e = some w1 → ¬ Sound w e →
      ¬ ApprovedExactly w1.db ∨ ∃ id row, w.db.translation_review_items.rows id = some row ∧
        ∀ result : ProviderResult, result.translated_text ≠ row.source_text →
          ∃ es w2, machine.run w1 es = some w2 ∧ ¬ Kept w2.log) := by
  have hfair := fair_of_reach h
  refine ⟨hfair.approved, hfair.kept, ?_, ?_⟩
  · exact fun w' hlater => (inv_of_reachable (h.reachable.later hlater)).replays
  · intro e w1 hstep hsound
    exact violated_of_unsound (inv_of_reachable h.reachable) hfair hsound hstep

/-! ## Two reviewers -/

def alice : AuthUserSummary := ⟨"alice", "acme"⟩

def bob : AuthUserSummary := ⟨"bob", "acme"⟩

def greeting : NewReview := ⟨"2cf24d", "en", "ko", "hello", "안녕", "openai", "gpt", none⟩

def noReviews : World := ⟨⟨Table.empty, []⟩, fun _ => none, []⟩

def oneReview : World := { noReviews with db := create_review noReviews.db alice "trv_1" greeting }

def editing (actor : AuthUserSummary) : Event :=
  .apply_review_action actor "trv_1" ⟨.edit, some "안녕하세요"⟩ 1

def approving (actor : AuthUserSummary) : Event :=
  .apply_review_action actor "trv_1" ⟨.approve, none⟩ 2

/-- A retranslation up to its last transaction. -/
def retranslating : List Event :=
  [.retranslate_review 0 bob "trv_1", .policy 0 ⟨true, true, "openai"⟩,
    .provider 0 (.ok ⟨"여보세요", "gpt", none⟩)]

theorem oneReview_reach : machine.Reach Sound oneReview :=
  .next (.start ⟨rfl, rfl, rfl, rfl⟩) (a := .create_review alice "trv_1" greeting) trivial
    (if_pos ⟨rfl, by decide, by decide⟩)

theorem an_edit_is_retranslated_later : ∃ w, machine.Reach Sound w ∧
    w.log = [.reviewed "trv_1" .edit, .started 0 "trv_1", .overwritten 0 "trv_1"] ∧
    ApprovedExactly w.db ∧ Kept w.log ∧ Replays w.db := by
  have hlog : (machine.run oneReview (editing alice :: (retranslating ++
      [.apply_retranslation 0]))).map World.log =
      some [.reviewed "trv_1" .edit, .started 0 "trv_1", .overwritten 0 "trv_1"] := by
    decide +kernel
  obtain ⟨w, hrun, hw⟩ := Option.map_eq_some_iff.mp hlog
  unfold Machine.run at hrun
  rw [List.foldlM_cons] at hrun
  obtain ⟨w2, hstep, hrest⟩ := Option.bind_eq_some_iff.mp hrun
  have hsound : Sound oneReview (editing alice) := by
    intro row hrow
    cases hrow
    exact ⟨fun ⟨c, phase, hc, _⟩ => Option.some_ne_none phase hc.symm, nofun⟩
  have hreach : machine.Reach Sound w := by
    refine Machine.Reach.run (.next oneReview_reach hsound hstep) ?_ hrest
    intro e he t
    simp only [retranslating, List.cons_append, List.nil_append, List.mem_cons,
      List.not_mem_nil, or_false] at he
    rcases he with rfl | rfl | rfl | rfl <;> trivial
  obtain ⟨happroved, hkept, hreplays, -⟩ := reviews_keep_decisions w hreach
  exact ⟨w, hreach, hw, happroved, hkept, hreplays w (.refl w)⟩

/-- Bob edits what Alice has approved, and Alice's edit is overwritten by the retranslation that
Bob had started before it. -/
theorem decisions_are_lost :
    (∃ w, machine.Reachable w ∧ ¬ ApprovedExactly w.db) ∧
    (∃ w, machine.Reachable w ∧ ¬ Kept w.log) := by
  refine ⟨?_, ?_⟩
  · have hrow : (machine.run oneReview [approving alice, editing bob]).map
        (fun w => (w.db.translation_review_items.rows "trv_1").map
          (fun row => (row.status, row.approved_by_user_id))) =
        some (some (.edited, some "alice")) := by decide +kernel
    obtain ⟨w, hrun, hw⟩ := Option.map_eq_some_iff.mp hrow
    obtain ⟨row, hfound, heq⟩ := Option.map_eq_some_iff.mp hw
    refine ⟨w, oneReview_reach.reachable.later (Machine.later_of_run hrun), fun hexact => ?_⟩
    have halice : row.approved_by_user_id = some "alice" := congrArg Prod.snd heq
    have hby : row.approved_by_user_id.isSome := halice ▸ rfl
    have hstatus := (hexact "trv_1" row hfound).1.mp hby
    exact nomatch hstatus.symm.trans (congrArg Prod.fst heq)
  · have hlog : (machine.run oneReview (retranslating ++
        [editing alice, .apply_retranslation 0])).map World.log =
        some [.started 0 "trv_1", .reviewed "trv_1" .edit, .overwritten 0 "trv_1"] := by
      decide +kernel
    obtain ⟨w, hrun, hw⟩ := Option.map_eq_some_iff.mp hlog
    refine ⟨w, oneReview_reach.reachable.later (Machine.later_of_run hrun), fun hkept => ?_⟩
    exact hkept 0 "trv_1" .edit (hw ▸ List.Sublist.refl _)

end moaworks.translation_operations

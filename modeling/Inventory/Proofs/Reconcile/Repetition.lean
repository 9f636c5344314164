/-
# The same report once more

`reconcile`, run again with the same report.

A reconciliation that is repeated with the same reported records finds everything as it left
it: each key that it reported is stored, in the record that it saved for the key (`LeftBy`).
So the second run counts every key as unchanged, and deletes nothing
(`repetition_changes_nothing`):

| stored records after the first run | after the second one |
| --- | --- |
| with a key in the scope | have another refreshed stamp, and are otherwise equal |
| without | are as they were |

The reported records may come in under other identifiers, and with the properties of their
items in another order: what is compared are values, and what the first run wrote into a
record, the cloud context and the stamps, either is written again or does not count.
-/

import Inventory.Proofs.Reconcile.EqualReports
import Inventory.Proofs.Reconcile.Report

namespace Inventory
namespace Reconcile

variable {scope : Scope} {r r' u u' : Record} {o : Outcome} {remote remote' : List Record}
  {key : String} {now t : Timestamp}

/-! ### What the first run leaves -/

/-- What is known of the record `u` that was saved for a reported record `r`. -/
structure Saved (r u : Record) : Prop where
  restamped : Restamped u r
  wellFormed : u.WellFormed
  refreshable : TakesInstants u.schema refreshedField

/-- A field that took one instant as a stamp takes any other. -/
theorem takesInstants_of_stamp (h : stamp r refreshedField (.timestamp now) = .ok u) :
    TakesInstants u.schema refreshedField := by
  intro f hf t
  have hschema : u.schema = r.schema := (stamp_eq_ok (by decide) h).1.schema
  rw [hschema] at hf
  have hdeclares : r.schema.declares refreshedField = true := by
    rw [Schema.declares, hf]
    rfl
  rw [stamp, if_pos hdeclares, Record.set_eq_ok_iff] at h
  obtain ⟨f', hf', hfits, -⟩ := h
  obtain rfl := Option.some.inj (hf.symm.trans hf')
  revert hfits
  cases f.type <;> exact id

/-- What was settled for a reported record is what is found again. -/
theorem Settles.saved {stored : Option Record} (h : Settles now stored r u) (hr : r.WellFormed)
    (hstored : ∀ existing, stored = some existing → existing.WellFormed) : Saved r u where
  restamped := h.restamped.1
  wellFormed := h.wellFormed hr hstored
  refreshable := by
    cases h with
    | matched h =>
      obtain ⟨_, _, -, -, hlast⟩ := matched_cases h
      exact takesInstants_of_stamp hlast
    | fresh h =>
      obtain ⟨_, _, -, -, hlast⟩ := fresh_cases h
      exact takesInstants_of_stamp hlast

/-- What a run leaves: every reported key is stored, in the record that was saved for it. -/
structure LeftBy (scope : Scope) (remote after : List Record) : Prop where
  held : ∀ key ∈ scope.keys remote, ∃ r u, scope.last? remote key = some r
    ∧ scope.first? after key = some u ∧ Saved r u
  first : ∀ u ∈ after, ∀ key, scope.key? u = some key →
    key ∈ scope.keys remote ∧ scope.first? after key = some u
  slot : ∀ u ∈ after, scope.Covers u → (u.slots.get? scope.keyField).isSome

variable {σ : Type} {c : Call} {s : Store σ} {p : Plan}

/-- **What a run leaves** when it succeeds. -/
theorem leftBy_of_plan_eq_ok (hin : Inputs s.records c.remote)
    (hwf : ∀ r ∈ s.records.values ++ c.remote, r.WellFormed)
    (hcontext : c.schema.declares Record.contextField = true) (hkey : c.keyField ∉ stampFields)
    (h : c.plan s = .ok p) :
    LeftBy c.scope c.remote (Store.batched s.records p.upserts p.deletes).values := by
  have hs := hin.consistent
  have ha := hin.apart c.scope
  have hp := Call.planned_of_plan_eq_ok hs hcontext h
  have hsettles := Call.settles_of_plan_eq_ok hcontext h
  obtain ⟨hstored, hentered⟩ := enterable_of_plan_eq_ok h
  -- one record per key is left, so the first one with a key is any one with it
  have hfirst : ∀ u ∈ (Store.batched s.records p.upserts p.deletes).values, ∀ key,
      c.scope.key? u = some key →
        c.scope.first? (Store.batched s.records p.upserts p.deletes).values key = some u := by
    intro u hu key hk
    obtain ⟨u₀, h₀⟩ := Scope.exists_first? hu hk
    obtain ⟨hu₀, hk₀⟩ := Scope.mem_of_first? h₀
    rwa [hp.eq_of_mem_after hkey hs hu hu₀ hk hk₀]
  constructor
  case held =>
    intro key hmem
    obtain ⟨u, hu, r, hr, hsettle⟩ := exists_left_of_forall₂ hsettles.flip hmem
    obtain ⟨hk, r₀, hr₀, rfl⟩ := Scope.mem_of_last? hr
    have hsaved : Saved (c.scope.placed r₀) u := by
      refine hsettle.saved ?_ fun existing hexisting => ?_
      · exact (hentered r₀ hr₀).wellFormed_placed hcontext
          (hwf r₀ (List.mem_append_right _ hr₀))
      · exact hwf existing (List.mem_append_left _ (Scope.mem_of_first? hexisting).1)
    have hafter := ((hp.mem_after_iff hkey hs ha).2 hu).1
    exact ⟨_, u, hr, hfirst u hafter key ((hsaved.restamped.key?_eq hkey).trans hk), hsaved⟩
  case first =>
    intro u hu key hk
    have hsaved := hp.mem_upserts_of_mem_after hkey hs hu (by rw [hk]; rfl)
    exact ⟨(hp.saves_of_key hkey hsaved hk).1, hfirst u hu key hk⟩
  case slot =>
    intro u hu hcovers
    rw [(hs.batched p.upserts p.deletes).mem_values_iff] at hu
    obtain ⟨-, ⟨hsaved, -⟩ | ⟨-, hkept⟩⟩ := Store.saved_or_kept hu
    · -- a saved record has the slots of the reported one, which the report's pass has checked
      obtain ⟨key, -, r, hr, hsettle⟩ := exists_left_of_forall₂ hsettles hsaved
      obtain ⟨-, r₀, hr₀, rfl⟩ := Scope.mem_of_last? hr
      obtain ⟨-, r', hmoved, hslot⟩ := hentered r₀ hr₀
      obtain rfl := places_of_declares c.scope hcontext r₀ r' hmoved
      change (u.slots.get? c.keyField).isSome = true
      rwa [hsettle.restamped.1.slots c.keyField hkey]
    · -- a kept one was listed, so the pass over the stored records has checked it
      refine hstored u ?_
      rw [Call.listInContext_eq_filter]
      exact List.mem_filter.2 ⟨hs.mem_values_iff.2 hkept, by simpa using hcovers⟩

/-! ### A reported record that was saved before -/

/-- **Nothing differs** from what was saved for an alike record. -/
theorem Saved.sameValuesExcept (h : Saved r u) (hr' : r'.WellFormed) (hsame : AlikeButId r r')
    {r₁ : Record} (h₁ : copyStamp (r'.withId u.id) u createdField = .ok r₁) :
    r₁.sameValuesExcept stampFields u = true := by
  have hmoved : Restamped r₁ (r'.withId u.id) := (copyStamp_eq_ok (by decide) h₁).1
  have hr₁ := wellFormed_copyStamp (hr'.withId u.id) h.wellFormed h₁
  have hschema : r₁.schema = u.schema :=
    (hmoved.schema.trans hsame.schema_eq).trans h.restamped.schema.symm
  rw [sameValuesExcept_iff_sameLookup hr₁.filled h.wellFormed.filled hschema]
  intro name hname
  rw [h.restamped.slots name hname, hmoved.slots name hname]
  exact hsame.sameLookup name

/-- **An alike record is stamped.** -/
theorem Saved.exists_matched (h : Saved r u) (hr' : r'.WellFormed) (hsame : AlikeButId r r')
    (t : Timestamp) : ∃ so, matched t u r' = .ok so := by
  have hschema : r'.schema = u.schema := hsame.schema_eq.trans h.restamped.schema.symm
  exact Reconcile.exists_matched h.wellFormed.filled hschema
    (.inr fun _ h₁ => h.sameValuesExcept hr' hsame h₁) h.refreshable t

/-- What has become of a stored record: one with a key has another refreshed stamp and is
otherwise equal, and any other one is as it was. -/
inductive Refreshes (scope : Scope) (t : Timestamp) : Record → Record → Prop where
  | other {r : Record} (unkeyed : scope.key? r = none) : Refreshes scope t r r
  | matched {r r' : Record} (keyed : (scope.key? r).isSome) (same : SameButRefreshed r r')
      (refreshed : r.schema.declares refreshedField = true →
        r'.slots.get? refreshedField = some (.timestamp t)) : Refreshes scope t r r'

/-- **It counts as unchanged** and is only refreshed. -/
theorem Saved.refreshes (h : Saved r u) (scope : Scope) (hr' : r'.WellFormed)
    (hsame : AlikeButId r r') (hkeyed : (scope.key? u).isSome)
    (hmatched : matched t u r' = .ok (u', o)) : o = .unchanged ∧ Refreshes scope t u u' := by
  have hschema : r'.schema = u.schema := hsame.schema_eq.trans h.restamped.schema.symm
  obtain ⟨r₁, r₂, h₁, h₂, h₃⟩ := matched_eq_ok_iff.1 hmatched
  have ho : o = .unchanged := by
    rcases h₂ with ⟨-, -, ho⟩ | ⟨hdiffer, -, -⟩
    · exact ho
    · rw [h.sameValuesExcept hr' hsame h₁] at hdiffer
      cases hdiffer
  refine ⟨ho, .matched hkeyed ?_ fun hdeclares => ?_⟩
  · exact (unchanged_iff_of_matched_eq_ok hr' h.wellFormed hschema hmatched).1 ho
  · have hschema₂ : r₂.schema = u.schema := by
      rw [← (stamp_eq_ok (by decide) h₃).1.schema, (matched_eq_ok hmatched).1.schema, hschema]
    rw [get?_stamp (hschema₂ ▸ hdeclares) h₃, if_pos rfl]

/-! ### The second run -/

/-- The same call at another time, with records reported once more. -/
def Call.again (c : Call) (remote : List Record) (now : Timestamp) : Call :=
  { c with remote, now }

/-- The reports of a second run that succeeds as far as the first one did: they are alike, and
well formed. -/
structure Again (c : Call) (remote' : List Record) : Prop where
  alike : List.Forall₂ AlikeButId c.remote remote'
  wellFormed : ∀ r ∈ remote', r.WellFormed
  enterable : ∀ r ∈ c.remote, Enterable c.schema c.context c.keyField r
  declares : c.schema.declares Record.contextField = true

namespace Again

/-- The records of the second report can be entered. -/
theorem enterable' (h : Again c remote') :
    ∀ r ∈ remote', Enterable c.schema c.context c.keyField r := by
  intro r' hr'
  obtain ⟨r, hr, halike⟩ := exists_left_of_forall₂ h.alike hr'
  exact halike.enterable (h.enterable r hr)

/-- **What a run left** is found again for each key. -/
theorem exists_saved (h : Again c remote') {after : List Record}
    (hleft : LeftBy c.scope c.remote after) (hr' : c.scope.last? remote' key = some r') :
    r'.WellFormed ∧ ∃ r u, AlikeButId r r' ∧ c.scope.first? after key = some u ∧ Saved r u := by
  obtain ⟨hk, r₀, hr₀, rfl⟩ := Scope.mem_of_last? hr'
  obtain ⟨r, hr, halike⟩ := Scope.exists_last?_of_last? h.alike hr'
  have hmem : key ∈ c.scope.keys c.remote := by
    rw [← Scope.keys_eq h.alike]
    exact Scope.mem_keys_iff.2 ⟨r₀, hr₀, hk⟩
  obtain ⟨r₁, u, hlast, hfirst, hsaved⟩ := hleft.held key hmem
  obtain rfl := Option.some.inj (hr.symm.trans hlast)
  exact ⟨(h.enterable' r₀ hr₀).wellFormed_placed h.declares (h.wellFormed r₀ hr₀), r, u, halike,
    hfirst, hsaved⟩

/-- **The second run succeeds.** -/
theorem exists_plan (h : Again c remote') (hleft : LeftBy c.scope c.remote s.records.values)
    (hkeyField : c.schema.declares c.keyField = true) (t : Timestamp) :
    ∃ p, (c.again remote' t).plan s = .ok p := by
  obtain ⟨held, hheld⟩ : ∃ held, (s.listInContext c.schema.name c.context).foldlM
      (StoredIndex.enter c.keyField) {} = .ok held := by
    refine StoredIndex.exists_foldlM_iff.2 fun u hu => ?_
    rw [Call.listInContext_eq_filter] at hu
    obtain ⟨hu, hcovers⟩ := List.mem_filter.1 hu
    exact hleft.slot u hu (of_decide_eq_true hcovers)
  obtain ⟨incoming, hincoming⟩ : ∃ incoming, remote'.foldlM
      (ReportedIndex.enter c.schema c.context c.keyField) {} = .ok incoming :=
    ReportedIndex.exists_foldlM_iff.2 h.enterable'
  obtain ⟨settled, hsettled⟩ : ∃ settled,
      incoming.byKey.entries.mapM (settle t held.byKey) = .ok settled := by
    refine exists_mapM fun entry hentry => ?_
    obtain ⟨hlast, hsettle⟩ := Call.settle_entry (c := c.again remote' t) h.declares hheld
      hincoming entry hentry
    have hlast : c.scope.last? remote' entry.1 = some entry.2 := hlast
    have hsettle : settle t held.byKey entry
        = settleWith t (c.scope.first? s.records.values entry.1) entry.2 := hsettle
    obtain ⟨hr', r, u, halike, hfirst, hsaved⟩ := h.exists_saved hleft hlast
    rw [hsettle, hfirst]
    exact hsaved.exists_matched hr' halike t
  exact ⟨_, plan_eq_ok_iff.2 ⟨hkeyField, held, incoming, settled, hheld, hincoming, hsettled, rfl⟩⟩

/-- A key that was left counts as unchanged, and is only refreshed. -/
theorem settled_key (h : Again c remote') {after : List Record}
    (hleft : LeftBy c.scope c.remote after) (hr' : c.scope.last? remote' key = some r')
    (hsettle : settleWith t (c.scope.first? after key) r' = .ok (u', o)) :
    o = .unchanged ∧ ∃ u, c.scope.first? after key = some u ∧ u'.id = u.id
      ∧ Refreshes c.scope t u u' := by
  obtain ⟨hwf, r, u, halike, hfirst, hsaved⟩ := h.exists_saved hleft hr'
  rw [hfirst] at hsettle
  have hkeyed : (c.scope.key? u).isSome := by
    rw [(Scope.mem_of_first? hfirst).2]
    rfl
  obtain ⟨ho, hrefreshes⟩ := hsaved.refreshes c.scope hwf halike hkeyed hsettle
  exact ⟨ho, u, hfirst, (matched_eq_ok hsettle).2, hrefreshes⟩

/-- The second plan is made as a plan should be. -/
theorem planned (h : Again c remote') (hs : Store.Consistent s.records)
    (hplan : (c.again remote' t).plan s = .ok p) :
    Planned c.scope s.records.values remote' p := by
  have hdeclares : (c.again remote' t).schema.declares Record.contextField = true := h.declares
  exact Call.planned_of_plan_eq_ok hs hdeclares hplan

variable (h : Again c remote') (hleft : LeftBy c.scope c.remote s.records.values)
  (hs : Store.Consistent s.records) (hplan : (c.again remote' t).plan s = .ok p)
include h hleft

/-- No reported key is new. -/
theorem newId?_eq_none (key : String) : c.scope.newId? s.records.values remote' key = none := by
  rw [Option.eq_none_iff_forall_ne_some]
  intro id hnew
  obtain ⟨hfirst, r₀, hr₀, hk, -⟩ := Scope.newId?_eq_some hnew
  have hmem : key ∈ c.scope.keys c.remote := by
    rw [← Scope.keys_eq h.alike]
    exact Scope.mem_keys_iff.2 ⟨r₀, hr₀, hk⟩
  obtain ⟨-, u, -, hu, -⟩ := hleft.held key hmem
  cases hfirst.symm.trans hu

include hplan

/-- **Every key counts as unchanged**, and is only refreshed. -/
theorem exists_settled :
    ∃ held incoming settled, p = planOf c.schema c.context held incoming settled
      ∧ List.Forall₂ (fun key so => so.2 = .unchanged
        ∧ ∃ u, c.scope.first? s.records.values key = some u ∧ so.1.id = u.id
          ∧ Refreshes c.scope t u so.1) (c.scope.keys c.remote) settled := by
  have hdeclares : (c.again remote' t).schema.declares Record.contextField = true := h.declares
  obtain ⟨held, incoming, settled, hp, hsettled⟩ := Call.settled_of_plan_eq_ok hdeclares hplan
  have hkeys : (c.again remote' t).scope.keys (c.again remote' t).remote
      = c.scope.keys c.remote := Scope.keys_eq h.alike
  rw [hkeys] at hsettled
  exact ⟨held, incoming, settled, hp,
    hsettled.imp fun key so ⟨r', hr', hsettle⟩ => h.settled_key hleft hr' hsettle⟩

include hs

/-- **Nothing is deleted:** every stored record with a key is the only one of a reported key. -/
theorem deletes_eq_nil : p.deletes = [] := by
  have hp := h.planned hs hplan
  refine List.eq_nil_iff_forall_not_mem.2 fun id hid => ?_
  obtain ⟨u, hu, -, hkeeps⟩ := (hp.deletes id).1 hid
  obtain ⟨key, hk, hout⟩ := Scope.keeps_eq_false_iff.1 hkeeps
  obtain ⟨hmem, hfirst⟩ := hleft.first u hu key hk
  rw [Scope.keys_eq h.alike, hfirst] at hout
  exact hout.elim (fun hstale => hstale hmem) fun hlater => hlater rfl

/-- **The counts of the second run.** -/
theorem counts : p.report.created = 0 ∧ p.report.updated = 0 ∧ p.report.deleted = 0
    ∧ p.report.unchanged = (c.scope.keys c.remote).length := by
  have hdeletes := h.deletes_eq_nil hleft hs hplan
  obtain ⟨held, incoming, settled, rfl, hsettled⟩ := h.exists_settled hleft hplan
  have hnone : ∀ o, o ≠ .unchanged → countOf o settled = 0 := by
    refine fun o ho => countOf_eq_zero_iff.2 fun so hso heq => ?_
    obtain ⟨key, -, hunchanged, -⟩ := exists_left_of_forall₂ hsettled hso
    exact ho (heq ▸ hunchanged)
  have hcreated := hnone .created nofun
  have hupdated := hnone .updated nofun
  have hsum := countOf_add settled
  have hlength := hsettled.length_eq
  refine ⟨hcreated, hupdated, congrArg List.length hdeletes, ?_⟩
  change countOf .unchanged settled = _
  omega

/-- Each record is saved once, as no new key brings an identifier. -/
theorem nodup_upserts (hkey : c.keyField ∉ stampFields) : (p.upserts.map Record.id).Nodup := by
  refine (h.planned hs hplan).nodup_upserts hkey hs ⟨?_, ?_⟩
  · intro key key' id hnew
    rw [h.newId?_eq_none hleft] at hnew
    cases hnew
  · intro key r hr hnew
    rw [h.newId?_eq_none hleft] at hnew
    cases hnew

/-- **What becomes of the stored records** in the second run. -/
theorem forall₂_refreshes [Watcher σ] (hkey : c.keyField ∉ stampFields) :
    List.Forall₂ (Refreshes c.scope t) s.records.values
      (s.applyBatch p.upserts p.deletes).records.values := by
  have hnodup := h.nodup_upserts hleft hs hplan hkey
  rw [Store.records_applyBatch, h.deletes_eq_nil hleft hs hplan]
  obtain ⟨held, incoming, settled, rfl, hsettled⟩ := h.exists_settled hleft hplan
  refine Store.forall₂_values_batched hs hnodup (fun u' hu' => ?_) fun u hu hunsaved => ?_
  · obtain ⟨so, hso, rfl⟩ := List.mem_map.1 hu'
    obtain ⟨key, -, -, u, hfirst, hid, hrefreshes⟩ := exists_left_of_forall₂ hsettled hso
    exact ⟨u, hid ▸ hs.mem_values_iff.1 (Scope.mem_of_first? hfirst).1, hrefreshes⟩
  · refine .other ?_
    -- a stored record with a key is saved again
    rw [Option.eq_none_iff_forall_ne_some]
    intro key hk
    obtain ⟨hmem, hfirst⟩ := hleft.first u hu key hk
    obtain ⟨so, hso, -, u₀, hfirst₀, hid, -⟩ := exists_left_of_forall₂ hsettled.flip hmem
    obtain rfl := Option.some.inj (hfirst.symm.trans hfirst₀)
    exact hunsaved (hid ▸ List.mem_map_of_mem (List.mem_map_of_mem hso))

end Again

/-- **The same report once more.** Where a reconciliation succeeded, with reported records that
were new to the store and to each other, it succeeds again with the same records under
whatever identifiers: every key counts as unchanged, as many records are skipped, and the
stored records stay as they are and where they are, but for the refreshed stamps of those
with a key. -/
theorem repetition_changes_nothing [Watcher σ] {report : SyncReport} (t : Timestamp)
    (hin : Inputs s.records c.remote)
    (hwf : ∀ r ∈ s.records.values ++ c.remote ++ remote', r.WellFormed)
    (hcontext : c.schema.declares Record.contextField = true) (hkey : c.keyField ∉ stampFields)
    (hsame : List.Forall₂ SameButId c.remote remote') (h : (c.alone s).1 = .ok report) :
    ∃ report', ((c.again remote' t).alone (c.alone s).2).1 = .ok report'
      ∧ report'.created = 0 ∧ report'.updated = 0 ∧ report'.deleted = 0
      ∧ report'.unchanged = (c.scope.keys c.remote).length ∧ report'.skipped = report.skipped
      ∧ List.Forall₂ (Refreshes c.scope t) (c.alone s).2.records.values
        ((c.again remote' t).alone (c.alone s).2).2.records.values := by
  cases hplan : c.plan s with
  | error e =>
    rw [Call.alone_of_plan_eq_error hplan] at h
    cases h
  | ok p =>
    rw [Call.alone_of_plan_eq_ok hplan] at h ⊢
    obtain rfl : p.report = report := Except.ok.inj h
    let s₁ := s.applyBatch p.upserts p.deletes
    have hs₁ : Store.Consistent s₁.records := by
      rw [Store.records_applyBatch]
      exact hin.consistent.batched _ _
    have hbefore : ∀ r ∈ s.records.values ++ c.remote, r.WellFormed :=
      fun r hr => hwf r (List.mem_append_left _ hr)
    have hlater : ∀ r ∈ remote', r.WellFormed := fun r hr => hwf r (List.mem_append_right _ hr)
    -- what the first call leaves is all that the second one needs to know of the store
    have hleft : LeftBy c.scope c.remote s₁.records.values := by
      rw [Store.records_applyBatch]
      exact leftBy_of_plan_eq_ok hin hbefore hcontext hkey hplan
    have hagain : Again c remote' := by
      refine ⟨forall₂_alikeButId hsame (fun r hr => ?_) fun r hr => (hlater r hr).toDistinct,
        hlater, (enterable_of_plan_eq_ok hplan).2, hcontext⟩
      exact (hbefore r (List.mem_append_right _ hr)).toDistinct
    obtain ⟨p', hplan'⟩ := hagain.exists_plan hleft (plan_eq_ok_iff.1 hplan).1 t
    obtain ⟨hcreated, hupdated, hdeleted, hunchanged⟩ := hagain.counts hleft hs₁ hplan'
    -- both calls skip what is left of as many reported records over as many keys
    have hskipped : p'.report.skipped = p.report.skipped := by
      have hfirst := (counts_of_plan_eq_ok hplan).1
      have hsecond := (counts_of_plan_eq_ok hplan').1
      have hsaved := length_upserts_of_plan_eq_ok hplan
      have hkeys := (Call.planned_of_plan_eq_ok hin.consistent hcontext hplan).upserts.length_eq
      have hlength : (c.again remote' t).remote.length = c.remote.length := hsame.length_eq.symm
      omega
    rw [Call.alone_of_plan_eq_ok hplan']
    exact ⟨p'.report, rfl, hcreated, hupdated, hdeleted, hunchanged, hskipped,
      hagain.forall₂_refreshes hleft hs₁ hplan' hkey⟩

/-- A machine that the first run creates is reported again a minute later, under another
identifier. -/
theorem repetition_changes_nothing_machine :
    ∃ report', ((soundCall.again [webIn "east" 40] westRun.now).alone
        (soundCall.alone (Store.new ⟨0⟩ : Store InvalidationCount)).2).1 = .ok report'
      ∧ report'.created = 0 ∧ report'.updated = 0 ∧ report'.deleted = 0
      ∧ report'.unchanged = 1 ∧ report'.skipped = 0
      ∧ List.Forall₂ (Refreshes ⟨"machine", "east", "name"⟩ westRun.now)
        (soundCall.alone (Store.new ⟨0⟩ : Store InvalidationCount)).2.records.values
        ((soundCall.again [webIn "east" 40] westRun.now).alone
          (soundCall.alone (Store.new ⟨0⟩ : Store InvalidationCount)).2).2.records.values := by
  have hreport : (soundCall.alone (Store.new ⟨0⟩ : Store InvalidationCount)).1
      = .ok { entityType := "machine", cloudContext := "east", created := 1 } := rfl
  have hin : Inputs (Store.new ⟨0⟩ : Store InvalidationCount).records soundCall.remote :=
    ⟨.empty, by decide +kernel, fun _ _ => rfl⟩
  have hwf : ∀ r ∈ (Store.new ⟨0⟩ : Store InvalidationCount).records.values ++ soundCall.remote
      ++ [webIn "east" 40], r.WellFormed := by
    have hall : (Store.new ⟨0⟩ : Store InvalidationCount).records.values ++ soundCall.remote
        ++ [webIn "east" 40] = [webIn "east" 33, webIn "east" 40] := rfl
    rw [hall]
    simp only [List.forall_mem_cons]
    exact ⟨(builtOn_webIn _ _).wellFormed, (builtOn_webIn _ _).wellFormed, nofun⟩
  have hsame : List.Forall₂ SameButId soundCall.remote [webIn "east" 40] :=
    .cons (by decide +kernel) .nil
  exact repetition_changes_nothing westRun.now hin hwf (by decide +kernel) (by decide) hsame
    hreport

end Reconcile
end Inventory

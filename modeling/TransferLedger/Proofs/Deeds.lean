import TransferLedger.Proofs.Frame
import TransferLedger.Proofs.Run

/-! What is done with single transfers, through their records and by calls.

A record writes to the plan alone, a call also to the tally.  As in a run of events, a
session whose handle shows a region does what its ledger does.  A session whose plan is
released does nothing.
-/

namespace TransferLedger

open Plan (Order Region Handle Record)

/-- Something that is done with one transfer. -/
inductive Deed where
  /-- Reports a status to the record of the transfer. -/
  | update (status : TransferStatus)
  /-- Reports a completion time to the record of the transfer. -/
  | stamp (nanos : UInt64)
  | call (call : Call) (now : UInt64)
  deriving DecidableEq

namespace Session

def withRecord (session : Session) (index : UInt32) (operation : Record → Handle × Volume) :
    Session :=
  match session.handle.record session.volume index with
  | .error _ => session
  | .ok record =>
      let (handle, volume) := operation record
      { session with handle, volume }

def act (session : Session) (index : UInt32) : Deed → Session
  | .update status => session.withRecord index fun record =>
      (session.handle.updateStatus session.volume record status).2
  | .stamp nanos => session.withRecord index fun record =>
      (session.handle.stampCompletion session.volume record nanos).2
  | .call call now => (session.call index call now).2

def actAll (session : Session) (deeds : List (UInt32 × Deed)) : Session :=
  deeds.foldl (fun session (index, deed) => session.act index deed) session

end Session

namespace Ledger

def withRecord (ledger : Ledger) (index : UInt32) (operation : Record → Region) : Ledger :=
  match ledger.region.record index with
  | .error _ => ledger
  | .ok record => { ledger with region := operation record }

def act (ledger : Ledger) (index : UInt32) : Deed → Ledger
  | .update status => ledger.withRecord index fun record =>
      (ledger.region.updateStatus record.index status).2
  | .stamp nanos => ledger.withRecord index fun record =>
      (ledger.region.stampCompletion record.index nanos).2
  | .call call now => (ledger.call index call now).2

def actAll (ledger : Ledger) (deeds : List (UInt32 × Deed)) : Ledger :=
  deeds.foldl (fun ledger (index, deed) => ledger.act index deed) ledger

end Ledger

namespace Session

variable {session : Session} {ledger : Ledger}

theorem withRecord_follows (taken : session.ledger = .ok ledger) (index : UInt32)
    {operation : Record → Handle × Volume} {change : Record → Region}
    (stores : ∀ record, operation record =
      session.handle.store session.volume (change record).bytes) :
    session.Follows ledger (ledger.withRecord index change)
      (session.withRecord index operation) := by
  obtain ⟨region, tally⟩ := ledger
  obtain ⟨shown, rfl⟩ := ledger_eq_ok_iff.1 taken
  have same : session.handle.record session.volume index = region.record index :=
    Handle.view_of_region shown _
  cases found : region.record index with
  | error fault =>
      simp only [withRecord, Ledger.withRecord, same, found]
      exact follows_self taken
  | ok record =>
      simp only [withRecord, Ledger.withRecord, same, found, stores]
      exact .stored

theorem act_follows (taken : session.ledger = .ok ledger) (index : UInt32) (deed : Deed) :
    session.Follows ledger (ledger.act index deed) (session.act index deed) := by
  have shown := (ledger_eq_ok_iff.1 taken).1
  cases deed with
  | update status =>
      refine withRecord_follows taken index fun record => ?_
      have updated := Handle.update_of_region shown fun region =>
        region.updateStatus record.index status
      exact congrArg Prod.snd updated
  | stamp nanos =>
      refine withRecord_follows taken index fun record => ?_
      have updated := Handle.update_of_region shown fun region =>
        region.stampCompletion record.index nanos
      exact congrArg Prod.snd updated
  | call call now => exact (call_follows taken index call now).2

theorem region_of_released (released : session.handle.isMapped = false) :
    session.handle.region session.volume = .error .unmapped := by
  rw [Handle.region, released]
  rfl

theorem act_of_released (released : session.handle.isMapped = false) (index : UInt32)
    (deed : Deed) : session.act index deed = session := by
  have none := region_of_released released
  have refused : session.handle.record session.volume index = .error .unmapped := by
    rw [Handle.record, Handle.view, none, error_bind]
  cases deed with
  | update status => simp only [act, withRecord, refused]
  | stamp nanos => simp only [act, withRecord, refused]
  | call call now =>
      simp only [act, Session.call, takeUp, Session.ledger, none, mapError_error, error_bind]

theorem setJobStatus_of_released (released : session.handle.isMapped = false)
    (status : JobStatus) : (session.setJobStatus status).2 = session := by
  simp only [Session.setJobStatus, Handle.setJobStatus, Handle.update, Handle.view,
    region_of_released released, error_bind]

end Session

namespace Ledger

open Plan.Region (TransferWords Word)

variable {ledger : Ledger} {order : Order}

theorem sameBut_withRecord {change : Record → Region} (whole : ledger.region.Whole)
    (index : UInt32)
    (changes : ∀ record, ledger.region.Holds record.index →
      ledger.region.SameBut (TransferWords record.index) (change record)) :
    ledger.region.SameBut
      (fun position => index < ledger.region.count ∧ TransferWords index position)
      (ledger.withRecord index change).region := by
  cases found : ledger.region.record index with
  | error fault =>
      simp only [withRecord, found]
      exact .refl _ _
  | ok record =>
      obtain ⟨known, rfl⟩ := Region.index_of_record whole found
      simp only [withRecord, found]
      exact (changes record (whole.room known)).mono fun position inside => ⟨known, inside⟩

/-- A deed writes to the words of its transfer, if there is one. -/
theorem sameBut_act (whole : ledger.region.Whole) (index : UInt32) (deed : Deed) :
    ledger.region.SameBut
      (fun position => index < ledger.region.count ∧ TransferWords index position)
      (ledger.act index deed).region := by
  cases deed with
  | update status =>
      exact sameBut_withRecord whole index fun _ held => Region.sameBut_updateStatus held status
  | stamp nanos =>
      exact sameBut_withRecord whole index fun _ held => Region.sameBut_stampCompletion held nanos
  | call call now => exact sameBut_call whole index call now

theorem keeps_act (kept : ledger.region.Keeps order) (valid : order.Valid) (index : UInt32)
    (deed : Deed) : (ledger.act index deed).region.Keeps order := by
  have words : ledger.region.SameBut (Word ledger.region.count) _ :=
    (sameBut_act (kept.whole valid) index deed).mono fun _ inside => Or.inr ⟨index, inside⟩
  exact words.keeps kept

end Ledger

namespace Session

variable {session : Session} {ledger : Ledger} {order : Order}

theorem Stands.act (stands : session.Stands order ledger) (valid : order.Valid) (index : UInt32)
    (deed : Deed) : (session.act index deed).Stands order (ledger.act index deed) :=
  stands.follow (Ledger.keeps_act stands.kept valid index deed)
    (act_follows stands.ledger_eq index deed)

theorem Stands.actAll (stands : session.Stands order ledger) (valid : order.Valid)
    (deeds : List (UInt32 × Deed)) :
    (session.actAll deeds).Stands order (ledger.actAll deeds) := by
  induction deeds generalizing session ledger with
  | nil => exact stands
  | cons first rest ih => exact ih (stands.act valid first.1 first.2)

end Session

end TransferLedger

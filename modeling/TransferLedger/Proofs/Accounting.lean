import TransferLedger.Proofs.Deeds
import TransferLedger.Proofs.Totals

/-! The totals of a job after whatever was done with its transfers.

A report is counted if its transfer runs until then and ends by it.  What the totals gain
are the details of these reports, each with the strings and the size that the order gives
the transfer and with the status that was reported.  Nothing else adds to the totals.
-/

namespace TransferLedger

open Plan (Order Region Handle)

namespace Deed

/-- The status that a transfer has after a deed. -/
def leaves (deed : Deed) (current : TransferStatus) : TransferStatus :=
  match deed with
  | .update status => current.merge status
  | .stamp _ => current
  | .call made _ => current.merge made.status

/-- The status of a transfer after some deeds, of which only its own matter. -/
def statusAfter (index : UInt32) (deeds : List (UInt32 × Deed)) : TransferStatus :=
  deeds.foldl (fun current (other, deed) => if other = index then deed.leaves current else current)
    .notStarted

/-- The detail of a report that takes a transfer from the given status to a terminal one. -/
def ending? (item : Order.Item) (current : TransferStatus) : Deed → Option Summary.Detail
  | .call (.report status code) _ =>
      if current.isTerminal = false ∧ status.isTerminal = true then
        some (Ledger.detailOf item status code)
      else none
  | _ => none

/-- The detail of a deed that ends its transfer, after the deeds that are `done`. -/
def endingOf? (order : Order) (done : List (UInt32 × Deed)) (index : UInt32) (deed : Deed) :
    Option Summary.Detail :=
  order.items[index.toNat]?.bind fun item => deed.ending? item (statusAfter index done)

/-- The details of the deeds that end transfers, in their order. -/
def endings (order : Order) (done : List (UInt32 × Deed)) :
    List (UInt32 × Deed) → List Summary.Detail
  | [] => []
  | (index, deed) :: rest =>
      (endingOf? order done index deed).toList ++ endings order (done ++ [(index, deed)]) rest

variable {index other : UInt32} {done : List (UInt32 × Deed)}

theorem statusAfter_append_self (deed : Deed) :
    statusAfter index (done ++ [(index, deed)]) = deed.leaves (statusAfter index done) := by
  simp [statusAfter]

theorem statusAfter_append_of_ne (different : other ≠ index) (deed : Deed) :
    statusAfter other (done ++ [(index, deed)]) = statusAfter other done := by
  simp [statusAfter, different.symm]

end Deed

namespace Ledger

variable {ledger : Ledger} {order : Order} {item : Order.Item} {index : UInt32}
variable {summary : Summary} {current : TransferStatus} {done : List (UInt32 × Deed)}

theorem act_unknown (kept : ledger.region.Keeps order)
    (behind : order.items.length ≤ index.toNat) (deed : Deed) : ledger.act index deed = ledger := by
  have unknown : ledger.region.count ≤ index := by
    rw [UInt32.le_iff_toNat_le, kept.count]
    exact behind
  cases deed with
  | update status => simp only [act, withRecord, Region.record_eq_error unknown]
  | stamp nanos => simp only [act, withRecord, Region.record_eq_error unknown]
  | call call now => simp only [act, Ledger.call, takeUp_unknown kept behind]

/-- A deed changes the status of its own transfer and adds at most one detail. -/
theorem act_eq (kept : ledger.region.Keeps order) (valid : order.Valid)
    (found : order.items[index.toNat]? = some item)
    (held : ledger.region.transferStatus index = .ok current)
    (installed : ledger.tally = .ofSummary summary) (deed : Deed) :
    ∃ region, ledger.act index deed =
        { region
          tally := .ofSummary ((deed.ending? item current).toList.foldl .addDetail summary) } ∧
      region.transferStatus index = .ok (deed.leaves current) ∧
      ∀ other, other ≠ index →
        region.transferStatus other = ledger.region.transferStatus other := by
  have room := kept.holds valid (kept.known found)
  have record := kept.record_eq valid found
  cases deed with
  | update status =>
      refine ⟨ledger.region.putStatus index (current.merge status), ?_, ?_, ?_⟩
      · simp only [act, withRecord, record, Region.updateStatus_eq held, installed]
        rfl
      · exact Region.transferStatus_putStatus_self room _
      · intro other different
        exact Region.transferStatus_putStatus_of_ne room different _
  | stamp nanos =>
      refine ⟨(ledger.region.stampCompletion index nanos).2, ?_, ?_, ?_⟩
      · simp only [act, withRecord, record, installed]
        rfl
      · exact (Region.transferStatus_stampCompletion room nanos index).trans held
      · intro other _
        exact Region.transferStatus_stampCompletion room nanos other
  | call call now =>
      obtain ⟨region, called, merged, others⟩ :=
        call_eq kept valid found held installed call now
      refine ⟨region, ?_, merged, others⟩
      rw [act, called]
      cases call with
      | start => simp [Call.status, TransferStatus.isTerminal, Deed.ending?]
      | report status code =>
          have added : (if current.isTerminal = false ∧ status.isTerminal = true then
                summary.addDetail (detailOf item status code) else summary) =
              ((Deed.call (.report status code) now).ending? item current).toList.foldl
                .addDetail summary := by
            rw [Deed.ending?]
            split <;> rfl
          rw [← added]
          rfl

/-- The plan is that of the order, and every transfer has the status that its own deeds
give it. -/
structure Reached (order : Order) (done : List (UInt32 × Deed)) (ledger : Ledger) : Prop where
  kept : ledger.region.Keeps order
  statuses : ∀ index item, order.items[index.toNat]? = some item →
    ledger.region.transferStatus index = .ok (Deed.statusAfter index done)

theorem Reached.act (reached : ledger.Reached order done) (valid : order.Valid)
    (installed : ledger.tally = .ofSummary summary) (index : UInt32) (deed : Deed) :
    (ledger.act index deed).Reached order (done ++ [(index, deed)]) ∧
      (ledger.act index deed).tally = .ofSummary
        ((Deed.endingOf? order done index deed).toList.foldl .addDetail summary) := by
  have kept := keeps_act reached.kept valid index deed
  cases found : order.items[index.toNat]? with
  | none =>
      have same := act_unknown reached.kept (List.getElem?_eq_none_iff.1 found) deed
      rw [same, Deed.endingOf?, found]
      refine ⟨⟨reached.kept, fun other item there => ?_⟩, installed⟩
      have different : other ≠ index := by
        rintro rfl
        rw [found] at there
        cases there
      rw [Deed.statusAfter_append_of_ne different]
      exact reached.statuses other item there
  | some item =>
      obtain ⟨region, done, merged, others⟩ := act_eq reached.kept valid found
        (reached.statuses index item found) installed deed
      rw [Deed.endingOf?, found]
      refine ⟨⟨kept, fun other peer there => ?_⟩, by rw [done]; rfl⟩
      rw [done]
      by_cases this : other = index
      · subst this
        rw [Deed.statusAfter_append_self]
        exact merged
      · rw [Deed.statusAfter_append_of_ne this, others other this]
        exact reached.statuses other peer there

theorem Reached.actAll (reached : ledger.Reached order done) (valid : order.Valid)
    (installed : ledger.tally = .ofSummary summary) (deeds : List (UInt32 × Deed)) :
    (ledger.actAll deeds).Reached order (done ++ deeds) ∧
      (ledger.actAll deeds).tally = .ofSummary
        ((Deed.endings order done deeds).foldl .addDetail summary) := by
  induction deeds generalizing ledger done summary with
  | nil =>
      rw [List.append_nil]
      exact ⟨reached, installed⟩
  | cons first rest ih =>
      obtain ⟨index, deed⟩ := first
      obtain ⟨next, added⟩ := reached.act valid installed index deed
      obtain ⟨last, total⟩ := ih next added
      rw [List.append_assoc] at last
      rw [Deed.endings, List.foldl_append]
      exact ⟨last, total⟩

end Ledger

namespace Session

variable {session : Session} {order : Order} {seed : Summary}

end Session

end TransferLedger

import TransferLedger.Proofs.Deeds
import TransferLedger.Proofs.Stamps

/-! What deeds make of the two words of a transfer.

The status word may hold any code at first.  A failure stays, otherwise the last status
does, and so does the first completion time that is not zero.
-/

namespace TransferLedger

namespace Plan

/-- The code in the status word of a transfer, and its completion time. -/
@[ext]
structure Words where
  code : Int
  time : UInt64
  deriving DecidableEq

namespace Words

/-- The status that the code stands for, if it stands for one. -/
def status? (words : Words) : Option TransferStatus :=
  (known words.code : Except Fault TransferStatus).toOption

/-- What the report of a status does to the status word. -/
def transition (words : Words) (new : TransferStatus) : Transition where
  previous := words.status?
  current := (words.status?.map fun status => status.merge new).getD new

end Words

end Plan

namespace Deed

open Plan (Words)

/-- The status that a deed reports. -/
def reported? : Deed → Option TransferStatus
  | .update status => some status
  | .stamp _ => none
  | .call made _ => some made.status

/-- The completion time that a deed offers to a transfer with the given words. -/
def offered? (words : Words) : Deed → Option UInt64
  | .update _ => none
  | .stamp nanos => some nanos
  | .call .start _ => none
  | .call (.report status _) now =>
      if (words.transition status).entersTerminal = true then some now else none

end Deed

namespace Plan.Words

variable {words : Words} {deeds : List Deed}

/-! ## Deeds in turn -/

/-- The words after a deed. -/
def act (words : Words) (deed : Deed) : Words where
  code := (deed.reported?.map fun status => (words.transition status).current.code).getD words.code
  time := if words.time = 0 then (deed.offered? words).getD 0 else words.time

/-- The completion times that deeds offer in turn. -/
def offers (words : Words) : List Deed → List UInt64
  | [] => []
  | deed :: rest => (deed.offered? words).toList ++ (words.act deed).offers rest

/-- The words after some deeds.  If there was or came a failure, it stays, otherwise the last
status does.  The first completion time stays. -/
def after (words : Words) (deeds : List Deed) : Words where
  code :=
    if words.status? = some .failed ∨ .failed ∈ deeds.filterMap Deed.reported? then
      TransferStatus.failed.code
    else ((deeds.filterMap Deed.reported?).getLast?.map TransferStatus.code).getD words.code
  time :=
    if words.time = 0 then ((words.offers deeds).find? fun nanos => nanos ≠ 0).getD 0
    else words.time

theorem act_update (words : Words) (status : TransferStatus) :
    words.act (.update status) =
      { words with code := (words.transition status).current.code } := by
  by_cases blank : words.time = 0
  · simp [act, Deed.reported?, Deed.offered?, blank]
  · simp [act, Deed.reported?, blank]

theorem act_start (words : Words) (now : UInt64) :
    words.act (.call .start now) = words.act (.update .started) :=
  rfl

theorem act_stamp (words : Words) (nanos : UInt64) :
    words.act (.stamp nanos) =
      { words with time := if words.time = 0 then nanos else words.time } :=
  rfl

/-- A report is an update, and also a stamp if the transfer ends by it. -/
theorem act_report (words : Words) (status : TransferStatus) (code : Int32) (now : UInt64) :
    words.act (.call (.report status code) now) =
      if (words.transition status).entersTerminal = true then
        (words.act (.update status)).act (.stamp now)
      else words.act (.update status) := by
  rw [act_update, act_stamp]
  by_cases enters : (words.transition status).entersTerminal = true
  · rw [if_pos enters, act, Deed.offered?, if_pos enters]
    rfl
  · by_cases blank : words.time = 0
    · simp [act, Deed.reported?, Deed.offered?, Call.status, enters, blank]
    · simp [act, Deed.reported?, Call.status, enters, blank]

theorem status?_code {code : Int} {time : UInt64} {status : TransferStatus}
    (same : code = status.code) : Words.status? { code, time } = some status := by
  have read : (known code : Except Fault TransferStatus) = .ok status := known_code same
  rw [status?, read, Except.toOption]

theorem code_of_status? {status : TransferStatus} (held : words.status? = some status) :
    words.code = status.code := by
  rw [status?, known] at held
  cases read : (Coded.ofCode words.code : Except UnknownValue TransferStatus) with
  | error unknown =>
      rw [read] at held
      cases held
  | ok found =>
      rw [read] at held
      cases held
      exact (Coded.code_of_ofCode read).symm

theorem current_of_failed (failed : words.status? = some .failed) (new : TransferStatus) :
    (words.transition new).current = .failed := by
  simp only [transition, failed, Option.map_some, Option.getD_some, TransferStatus.merge_failed]

/-- Everything but a failure is replaced, also a code that stands for no status. -/
theorem current_of_not_failed (alive : words.status? ≠ some .failed) (new : TransferStatus) :
    (words.transition new).current = new := by
  cases held : words.status? with
  | none => simp only [transition, held, Option.map_none, Option.getD_none]
  | some status =>
      have running : status ≠ .failed := fun failed => alive (by rw [held, failed])
      simp only [transition, held, Option.map_some, Option.getD_some,
        TransferStatus.merge_of_ne_failed running]

/-- A report ends a transfer that runs or whose status is unknown. -/
theorem entersTerminal_iff :
    (words.transition status).entersTerminal = true ↔
      (∀ earlier, words.status? = some earlier → earlier.isTerminal = false) ∧
        status.isTerminal = true := by
  cases held : words.status? with
  | none => simp [transition, Transition.entersTerminal, held]
  | some earlier =>
      cases runs : earlier.isTerminal with
      | false =>
          simp [transition, Transition.entersTerminal, held, runs,
            TransferStatus.merge_of_running runs]
      | true => simp [transition, Transition.entersTerminal, held, runs]

theorem act_of_reported (words : Words) {deed : Deed} {status : TransferStatus}
    (reported : deed.reported? = some status) :
    (words.act deed).code = (words.transition status).current.code ∧
      (words.act deed).status? = some (words.transition status).current := by
  have code : (words.act deed).code = (words.transition status).current.code := by
    simp only [act, reported, Option.map_some, Option.getD_some]
  exact ⟨code, status?_code code⟩

theorem act_of_silent (words : Words) {deed : Deed} (silent : deed.reported? = none) :
    (words.act deed).code = words.code ∧ (words.act deed).status? = words.status? := by
  have code : (words.act deed).code = words.code := by
    simp only [act, silent, Option.map_none, Option.getD_none]
  exact ⟨code, by rw [status?, status?, code]⟩

/-- The status word after some deeds, by induction on them for any words at first. -/
theorem code_foldl_act (words : Words) (deeds : List Deed) :
    (deeds.foldl act words).code = (words.after deeds).code := by
  induction deeds generalizing words with
  | nil =>
      by_cases failed : words.status? = some .failed
      · simp only [List.foldl_nil, after, failed, true_or, if_true, code_of_status? failed]
      · simp only [List.foldl_nil, after, failed, false_or, List.filterMap_nil, List.not_mem_nil,
          if_false, List.getLast?_nil, Option.map_none, Option.getD_none]
  | cons deed rest ih =>
      rw [List.foldl_cons, ih]
      cases reported : deed.reported? with
      | none =>
          obtain ⟨code, status⟩ := act_of_silent words reported
          simp only [after, code, status, List.filterMap_cons, reported]
      | some status =>
          obtain ⟨code, held⟩ := act_of_reported words reported
          by_cases failed : words.status? = some .failed
          · have stays := current_of_failed failed status
            simp only [after, held, failed, stays, true_or, if_true]
          · have replaced := current_of_not_failed failed status
            simp only [after, code, held, failed, replaced, false_or, List.filterMap_cons,
              reported, List.mem_cons, Option.some.injEq, List.getLast?_cons, Option.map_some,
              Option.getD_some, @eq_comm _ TransferStatus.failed status]
            cases (rest.filterMap Deed.reported?).getLast? <;> rfl

theorem time_foldl_act (words : Words) (deeds : List Deed) :
    (deeds.foldl act words).time = (words.after deeds).time := by
  induction deeds generalizing words with
  | nil =>
      by_cases blank : words.time = 0
      · simp only [List.foldl_nil, after, blank, if_true, offers, List.find?_nil, Option.getD_none]
      · simp only [List.foldl_nil, after, blank, if_false]
  | cons deed rest ih =>
      rw [List.foldl_cons, ih]
      by_cases blank : words.time = 0
      · cases offered : deed.offered? words with
        | none =>
            have still : (words.act deed).time = 0 := by simp only [act, blank, offered]; rfl
            simp only [after, blank, still, if_true, offers, offered, Option.toList_none,
              List.nil_append]
        | some nanos =>
            have time : (words.act deed).time = nanos := by simp only [act, blank, offered]; rfl
            by_cases zero : nanos = 0
            · simp [after, blank, time, zero, offers, offered]
            · simp [after, blank, time, zero, offers, offered]
      · have stays : (words.act deed).time = words.time := by simp only [act, blank, if_false]
        simp only [after, stays, blank, if_false]

theorem foldl_act (words : Words) (deeds : List Deed) :
    deeds.foldl act words = words.after deeds :=
  Words.ext (code_foldl_act words deeds) (time_foldl_act words deeds)

theorem after_nil (words : Words) : words.after [] = words :=
  (foldl_act words []).symm

theorem after_singleton (words : Words) (deed : Deed) : words.after [deed] = words.act deed :=
  (foldl_act words [deed]).symm

theorem after_append (words : Words) (first second : List Deed) :
    words.after (first ++ second) = (words.after first).after second := by
  rw [← foldl_act, ← foldl_act, ← foldl_act, List.foldl_append]

end Plan.Words

/-! ## The words of a region -/

namespace Plan.Region

open Bytes (slice Apart slice_splice_of_apart slice_splice_self)
open Bytes.LittleEndian (size_encode)

variable {region before after : Region} {index : UInt32} {touched : Nat → Prop}

def words (region : Region) (index : UInt32) : Words where
  code := region.statusCode index
  time := region.completionTime index

theorem status?_words (region : Region) (index : UInt32) :
    (region.words index).status? = (region.transferStatus index).toOption := by
  simp only [Words.status?, words, transferStatus]

theorem updateStatus_words (region : Region) (index : UInt32) (new : TransferStatus) :
    region.updateStatus index new =
      ((region.words index).transition new,
        region.putStatus index ((region.words index).transition new).current) := by
  simp only [updateStatus, Words.transition, Words.status?, words, transferStatus]

theorem SameBut.words_eq (same : before.SameBut touched after)
    (clear : ∀ position, TransferWords index position → ¬ touched position) :
    after.words index = before.words index := by
  have status : slice after.bytes (transferStatusAt index) 4 =
      slice before.bytes (transferStatusAt index) 4 := by
    refine same.slice_eq fun position behind front => clear position ?_
    rw [transferStatusAt_eq] at behind front
    exact ⟨by omega, by omega⟩
  rw [Region.words, Region.words, statusCode, statusCode, status, same.completionTime_eq clear]

theorem words_putStatus (held : region.Holds index) (status : TransferStatus) :
    (region.putStatus index status).words index =
      { region.words index with code := status.code } := by
  have written := slice_splice_self (held.status status)
  rw [transferWord, size_encode, ← transferWord] at written
  have apart : Apart (completionTimeAt index) 8 (transferStatusAt index)
      (transferWord status).size := by
    rw [transferWord, size_encode]
    exact (apart_status_completion index index).symm
  have still := slice_splice_of_apart (held.status status) apart
  apply Words.ext
  · simp only [words, statusCode, putStatus, written, decode_transferWord]
  · simp only [words, completionTime, putStatus, still]

theorem words_putCompletion (held : region.Holds index) (nanos : UInt64) :
    (region.putCompletion index nanos).words index =
      { region.words index with time := nanos } := by
  have still := slice_putCompletion_of_apart held nanos (apart_status_completion index index)
  apply Words.ext
  · simp only [words, statusCode, still]
  · exact completionTime_putCompletion_self held nanos

theorem stampCompletion_fst (region : Region) (index : UInt32) (nanos : UInt64) :
    (region.stampCompletion index nanos).1 = decide ((region.words index).time = 0) := by
  rw [stampCompletion, words]
  split
  · rename_i blank
    simp only [blank, decide_true]
  · rename_i marked
    simp only [marked, decide_false]

theorem words_updateStatus (held : region.Holds index) (status : TransferStatus) :
    (region.updateStatus index status).2.words index =
      (region.words index).act (.update status) := by
  rw [updateStatus_words, words_putStatus held, Words.act_update]

theorem words_stampCompletion (held : region.Holds index) (nanos : UInt64) :
    (region.stampCompletion index nanos).2.words index =
      (region.words index).act (.stamp nanos) := by
  have time : (region.words index).time = region.completionTime index := rfl
  rw [stampCompletion_snd, Words.act_stamp, ← time]
  by_cases blank : (region.words index).time = 0
  · rw [if_pos blank, if_pos blank, words_putCompletion held]
  · rw [if_neg blank, if_neg blank]

theorem Holds.updateStatus (held : region.Holds index) (status : TransferStatus) :
    (region.updateStatus index status).2.Holds index := by
  rw [Holds, (sameBut_updateStatus held status).size]
  exact held

end Plan.Region

namespace Ledger

open Plan (Region Record Words)

variable {ledger : Ledger} {index : UInt32} {assignment : Assignment}

/-- A report writes the words of its transfer, whether it succeeds or not. -/
theorem words_report (held : ledger.region.Holds assignment.index) (now : UInt64)
    (status : TransferStatus) (code : Int32) :
    (ledger.report assignment now status code).2.region.words assignment.index =
      (ledger.region.words assignment.index).act (.call (.report status code) now) := by
  have transition :
      (ledger.region.updateStatus assignment.index status).1 =
        (ledger.region.words assignment.index).transition status := by
    rw [Region.updateStatus_words]
  rw [region_report, Words.act_report, transition]
  split
  · rw [Region.words_stampCompletion (held.updateStatus status), Region.words_updateStatus held]
  · rw [Region.words_updateStatus held]

/-- What was accepted when the plan was opened can be taken up. -/
theorem takeUp_of_accepted (accepted : Region.ofBytes ledger.region.bytes = .ok ledger.region)
    (known : index < ledger.region.count) :
    ∃ assignment, ledger.takeUp index = .ok assignment ∧ assignment.index = index := by
  obtain ⟨long, header, read, _, _⟩ := Region.ofBytes_eq_ok_iff.1 accepted
  have whole := (Region.whole_of_ofBytes accepted).1
  have front : Plan.Layout.jobStatusAt ≤ ledger.region.bytes.size := Nat.le_trans (by decide) long
  have found : ledger.region.header = .ok header := by
    rw [whole.header_eq, Plan.Header.read_slice front, read]
  refine ⟨_, by rw [takeUp, whole.record_eq known, mapError_ok, ok_bind, found, mapError_ok,
    ok_bind], rfl⟩

theorem words_act (accepted : Region.ofBytes ledger.region.bytes = .ok ledger.region)
    (known : index < ledger.region.count) (deed : Deed) :
    (ledger.act index deed).region.words index = (ledger.region.words index).act deed := by
  have whole := (Region.whole_of_ofBytes accepted).1
  have held : ledger.region.Holds index := whole.room known
  have record := whole.record_eq known
  cases deed with
  | update status =>
      simp only [act, withRecord, record]
      exact Region.words_updateStatus held status
  | stamp nanos =>
      simp only [act, withRecord, record]
      exact Region.words_stampCompletion held nanos
  | call call now =>
      obtain ⟨assignment, taken, rfl⟩ := takeUp_of_accepted accepted known
      cases call with
      | start =>
          simp only [act, Ledger.call, taken, Words.act_start]
          exact Region.words_updateStatus held .started
      | report status code =>
          simp only [act, Ledger.call, taken]
          exact words_report held now status code

end Ledger

end TransferLedger

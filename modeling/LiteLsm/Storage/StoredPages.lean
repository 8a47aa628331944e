import LiteLsm.Filesystem.AppendedData
import LiteLsm.Storage.PageChecksum
import LiteLsm.Storage.PageIdentity

/-!
# Pages in files

A page is built in memory, appended to a file, read back through any file that
is open for reading and given to a reader.  The layers in between, descriptors
and partial writes, positions and short transfers at the end of the file, do
not show.
-/

namespace LiteLsm

open Checked Layout DataPageBuilder DataPageReader

namespace PosixSystem.KeptAppend

variable {ν : Type} [Posix.NameSpace ν] {strerror : Nat → String}
  {disk : Disk ν}
  (run : KeptAppend strerror disk)

/-- What reading the slice back may be answered with: the first transfer is
complete. -/
structure ReadsBack (answers : List ReadAnswer) : Prop where
  small : run.offset + run.slice.length < 2 ^ 64
  permitted : ReadAnswer.Permitted run.contents.length run.slice.length
    run.slice.length run.offset answers
  complete : ReadAnswer.CompleteFirst
    (min run.slice.length (run.contents.length - run.offset)) answers

theorem read_eq {answers : List ReadAnswer} (reads : run.ReadsBack answers)
    {reader : PosixFile} {buf : Bytes} {outcome : ReadOutcome}
    (returned : reader.read strerror run.contents run.offset run.slice.length
      buf answers = some outcome) :
    outcome.status.ok = true ∧ outcome.data = some run.slice.length ∧
      outcome.buf.take run.slice.length = run.slice := by
  have brought := PosixFile.read_completeFirst reads.small reads.permitted
    reads.complete returned
  rwa [run.requested_eq] at brought

end PosixSystem.KeptAppend

open PosixSystem in
/-- A data page that was appended to a file comes back whole: it passes its
check, has its type, and shows its pairs. -/
theorem dataPage_storedAndRead {ν : Type} [Posix.NameSpace ν]
    (strerror : Nat → String) (disk : Disk ν)
    (run : KeptAppend strerror disk) (pairs : List Pair)
    (nonempty : pairs ≠ []) (small : offsetAt pairs pairs.length < 2 ^ 28)
    (type : PageType) (pageSize address : Nat)
    (page : run.slice = dataPage type pageSize address pairs)
    {answers : List ReadAnswer} (reads : run.ReadsBack answers)
    (reader : PosixFile) (buf : Bytes) (outcome : ReadOutcome)
    (returned : reader.read strerror run.contents run.offset run.slice.length
      buf answers = some outcome) :
    let stored := outcome.buf.take run.slice.length
    outcome.status.ok = true ∧ outcome.data = some stored.length ∧
      (∀ readAt, PageReader.checkCRC32C ⟨readAt, stored⟩ = true ∧
        PageReader.getPageType ⟨readAt, stored⟩ = some type) ∧
      ∀ (outside : Nat → Option UInt8) (comparator : Compare) (steps : Nat),
        observeAfter (Memory.among outside stored) stored comparator
            (.seekToLast :: List.replicate steps .prev) =
          pure pairs.reverse[steps]? := by
  intro stored
  obtain ⟨ok, size, bytes⟩ := run.read_eq reads returned
  have same : stored = dataPage type pageSize address pairs :=
    bytes.trans page
  have finished := DataPageBuilder.sealed
    ((ofTypeAndSize type pageSize).addPairs pairs) address
  rw [footer_addPairs] at finished
  refine ⟨ok, ?_, ?_, ?_⟩
  · rw [size, show stored.length = run.slice.length from
      congrArg List.length bytes]
  · intro readAt
    rw [same]
    exact ⟨finished.accepted readAt, finished.typed readAt⟩
  · intro outside comparator steps
    rw [same, observeAfter_eq nonempty small rfl comparator]
    exact OpenPage.observe_stepsBack _ nonempty steps

/-- The sample page, written in one piece, followed by a byte and read in one
piece. -/
theorem dataPage_storedAndRead_sample :
    let page := dataPage .dataPage defaultPageSize 0 samplePairs
    ∃ outcome,
      (PosixFile.mk "log").read (fun _ => "") (page ++ [9]) 0 page.length []
          [.transferred page.length] = some outcome ∧
      PageReader.checkCRC32C ⟨0, outcome.buf.take page.length⟩ = true := by
  intro page
  have size : page.length = 28 := by decide +kernel
  have nonempty : page ≠ [] := by
    intro empty
    rw [empty] at size
    cases size
  have short : page.length < 2 ^ 64 := by omega
  let run := PosixSystem.keptAtOnce page short nonempty
  have contents : run.contents = page ++ [9] :=
    PosixSystem.contents_keptAtOnce page short nonempty
  have whole : run.contents.length = page.length + 1 := by
    rw [contents, List.length_append, List.length_singleton]
  have offset : run.offset = 0 := rfl
  have slice : run.slice = page := rfl
  have reads : run.ReadsBack [.transferred page.length] := by
    constructor
    · rw [offset, slice]
      omega
    · rw [offset, slice, whole]
      intro _
      exact ⟨by omega, by omega, fun _ => trivial⟩
    · rw [offset, slice, whole]
      exact (Nat.min_eq_left (Nat.le_succ _)).symm
  obtain ⟨outcome, returned⟩ : ∃ outcome,
      (PosixFile.mk "log").read (fun _ => "") run.contents 0 page.length []
        [.transferred page.length] = some outcome := by
    rw [PosixFile.read, PosixFile.readLoop, if_pos (by omega)]
    simp only [size, PosixFile.readLoop]
    exact ⟨_, rfl⟩
  have stored := dataPage_storedAndRead (fun _ => "") Disk.empty run
    samplePairs (by decide) (by decide +kernel) .dataPage defaultPageSize 0
    rfl reads ⟨"log"⟩ [] outcome returned
  refine ⟨outcome, ?_, (stored.2.2.1 0).1⟩
  rw [← returned, contents]

end LiteLsm

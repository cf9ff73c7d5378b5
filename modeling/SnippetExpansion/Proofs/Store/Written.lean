import SnippetExpansion.Proofs.Store.Operation
import SnippetExpansion.Proofs.Text.Utf8

/-! # What is written is loaded again
The document is the only thing in the file, and every write puts the whole of it there. It comes back from
its text, from the bytes of its text, and from a store that has written it. -/
namespace SnippetExpansion

theorem File.ofBytes_encode (t : Text) : File.ofBytes (Utf8.encode t) = .text t := by
  rw [File.ofBytes, Utf8.decode_encode]

theorem Store.write_file {d : StoredData} {s s' : Store}
    (hrun : (Store.write d).run s = (.ok (), s')) : s'.file = .text d.write := by
  rw [Store.write_run] at hrun
  cases hfault : s.writeFault with
  | some fault =>
    rw [hfault] at hrun
    cases hrun
  | none =>
    rw [hfault] at hrun
    cases hrun
    rfl

theorem StoredData.written_reads_back :
    (∀ d : StoredData, StoredData.parse d.write = .ok d) ∧
    (∀ d : StoredData, (File.ofBytes (Utf8.encode d.write)).data = .ok d) ∧
    ∀ (d : StoredData) (s s' : Store), (Store.write d).run s = (.ok (), s') →
      s'.file = .text d.write ∧ (Store.load.run s').1 = .ok d := by
  refine ⟨StoredData.parse_write, fun d => ?_, fun d s s' hrun => ?_⟩
  · rw [File.ofBytes_encode]
    exact File.data_write d
  · have hfile := Store.write_file hrun
    refine ⟨hfile, ?_⟩
    rw [Store.run_load]
    change s'.file.data = _
    rw [hfile, File.data_write]

def StoredData.awkward : StoredData where
  snippets := [⟨"\"".toList, "/\\n".toList, "\n\x00\x7f".toList, none⟩,
    ⟨[], "☃\x7b".toList, "𝄞".toList, some []⟩]
  categories := ["\\".toList, []]
  vars := (Dictionary.empty.insert [] "\t".toList).insert "\"é".toList []
  ai := ⟨some .claude, none, some [], some "\x1f".toList⟩

theorem StoredData.written_reads_back_awkward :
    StoredData.parse StoredData.awkward.write = .ok StoredData.awkward ∧
    ∃ s', (Store.write StoredData.awkward).run (.ofFile .missing) = (.ok (), s') ∧
      (Store.load.run s').1 = .ok StoredData.awkward := by
  obtain ⟨hparse, -, hload⟩ := StoredData.written_reads_back
  have hrun := Store.write_run StoredData.awkward (.ofFile .missing)
  exact ⟨hparse _, _, hrun, (hload _ _ _ hrun).2⟩

end SnippetExpansion

import Mathlib.Algebra.GroupWithZero.Nat
import ScanEngine.Proofs.Stream.Draining

/-! Saving and loading again. A writer that takes some of every offer takes all of it, and a reader
that hands out some bytes at every question fills every need it has bytes for, both with any number
of interruptions. So the bytes come back as they were, however they are cut into requests, portions
and chunks on the way. -/
namespace ScanEngine

def WriteAction.willing : WriteAction → Bool
  | .accept most => most != 0
  | .fault f => f.kind == .interrupted

def ReadAction.flowing : ReadAction → Bool
  | .data bytes => !bytes.isEmpty
  | .fault f => f.kind == .interrupted

def Writer.Willing (w : Writer) : Prop := ∀ a ∈ w.actions, a.willing = true

def Reader.Flowing (r : Reader) : Prop := ∀ a ∈ r.actions, a.flowing = true

instance (w : Writer) : Decidable w.Willing :=
  inferInstanceAs (Decidable (∀ a ∈ w.actions, a.willing = true))

instance (r : Reader) : Decidable r.Flowing :=
  inferInstanceAs (Decidable (∀ a ∈ r.actions, a.flowing = true))

theorem Writer.writeWilling {w next : Writer} {offer : Bytes} {answer : Reply Nat}
    (willing : w.Willing) (asked : w.write offer = (answer, next)) (due : offer ≠ []) :
    next.Willing ∧
      match answer with
      | .done n => n ≠ 0
      | .fault f => f.kind = .interrupted := by
  obtain ⟨taken, actions⟩ := w
  cases actions with
  | nil =>
    cases asked
    exact ⟨willing, fun none => due (List.length_eq_zero_iff.mp none)⟩
  | cons action rest =>
    obtain ⟨first, others⟩ := List.forall_mem_cons.mp willing
    cases action with
    | accept most =>
      cases asked
      have positive := List.length_pos_iff.mpr due
      have some : most ≠ 0 := by simpa [WriteAction.willing] using first
      refine ⟨others, ?_⟩
      change min most offer.length ≠ 0
      omega
    | fault f =>
      cases asked
      exact ⟨others, by simpa [WriteAction.willing] using first⟩

theorem Sends.faultlessIfWilling {w : Writer} {offer : Bytes} {out : Sent} (h : Sends w offer out)
    (willing : w.Willing) : out.fault = none ∧ out.writer.Willing := by
  induction h with
  | whole w => exact ⟨rfl, willing⟩
  | interrupted due asked _ _ ih => exact ih (Writer.writeWilling willing asked due).1
  | failed due asked final => exact absurd (Writer.writeWilling willing asked due).2 final
  | refused due asked => exact absurd rfl (Writer.writeWilling willing asked due).2
  | took due asked _ _ ih => exact ih (Writer.writeWilling willing asked due).1

theorem ElementSink.serveAllWilling {s : ElementSink} (clear : s.kept = none)
    (willing : s.writer.Willing) {asked : List WriteRequest}
    (due : ∀ w ∈ asked, ¬w.request.Void) :
    (s.serveAll asked).1.map Draining.returned = asked.map (·.request.count) ∧
      (s.serveAll asked).2.writer.taken = s.writer.taken ++ asked.flatMap WriteRequest.bytes ∧
      (s.serveAll asked).2.kept = none := by
  induction asked generalizing s with
  | nil => exact ⟨rfl, (List.append_nil _).symm, clear⟩
  | cons w rest ih =>
    obtain ⟨real, due⟩ := List.forall_mem_cons.mp due
    have out := sends s.writer w.bytes
    obtain ⟨fine, still⟩ := out.faultlessIfWilling willing
    obtain ⟨left, whole, ended⟩ := out.untakenRest
    rw [ended.mpr fine, List.append_nil] at whole
    have answer := serveOffered (by rw [clear]; rfl) real
    simp only [fine] at answer
    obtain ⟨returned, taken, kept⟩ :=
      ih (s := (s.serve w).2) (by rw [answer]) (by rw [answer]; exact still) due
    refine ⟨?_, ?_, kept⟩
    · rw [serveAll, List.map_cons, List.map_cons, returned, answer]
      rfl
    · rw [serveAll, taken, answer, deliveryTaken out.delivery, whole, List.flatMap_cons,
        List.append_assoc]

theorem Reader.readFlowing {r next : Reader} {room : Nat} {answer : Reply Bytes}
    (flowing : r.Flowing) (asked : r.read room = (answer, next)) (due : 0 < room)
    (left : r.remaining ≠ []) :
    next.Flowing ∧
      match answer with
      | .done got => got ≠ []
      | .fault f => f.kind = .interrupted := by
  obtain ⟨pending, actions⟩ := r
  cases pending with
  | cons b more =>
    cases asked
    refine ⟨flowing, ?_⟩
    simp only [ne_eq, List.take_eq_nil_iff, reduceCtorEq, or_false]
    omega
  | nil =>
    cases actions with
    | nil => exact absurd rfl left
    | cons action rest =>
      obtain ⟨first, others⟩ := List.forall_mem_cons.mp flowing
      cases action with
      | data bytes =>
        cases asked
        have some : bytes ≠ [] := by simpa [ReadAction.flowing] using first
        refine ⟨others, ?_⟩
        simp only [ne_eq, List.take_eq_nil_iff, some, or_false]
        omega
      | fault f =>
        cases asked
        exact ⟨others, by simpa [ReadAction.flowing] using first⟩

theorem Filled.meetsIfFlowing {r : Reader} {need : Nat} {out : Fill} (h : Filled r need out)
    (flowing : r.Flowing) (enough : need ≤ r.remaining.length) :
    out.fault = none ∧ out.bytes.length = need ∧ out.reader.Flowing := by
  induction h with
  | met r => exact ⟨rfl, rfl, flowing⟩
  | interrupted due asked _ _ ih =>
    have left := List.length_pos_iff.mp (Nat.lt_of_lt_of_le due enough)
    have same := (Reader.readFault asked).1
    exact ih (Reader.readFlowing flowing asked due left).1 (by rw [same]; exact enough)
  | failed due asked final =>
    have left := List.length_pos_iff.mp (Nat.lt_of_lt_of_le due enough)
    exact absurd (Reader.readFlowing flowing asked due left).2 final
  | ended due asked =>
    have left := List.length_pos_iff.mp (Nat.lt_of_lt_of_le due enough)
    exact absurd rfl (Reader.readFlowing flowing asked due left).2
  | gained due asked _ _ ih =>
    have left := List.length_pos_iff.mp (Nat.lt_of_lt_of_le due enough)
    obtain ⟨split, room, -⟩ := Reader.readData asked
    have lengths := congrArg List.length split
    rw [List.length_append] at lengths
    obtain ⟨fine, length, still⟩ :=
      ih (Reader.readFlowing flowing asked due left).1 (by omega)
    refine ⟨fine, ?_, still⟩
    rw [List.length_append, length]
    omega

namespace ElementSource

theorem serveFlowing {s : ElementSource} (clear : s.kept = none) (flowing : s.reader.Flowing)
    {q : Request} (due : ¬q.Void) {buffer : Bytes} (size : buffer.length = q.length)
    (enough : q.length ≤ s.reader.remaining.length) :
    let served := s.serve q buffer
    served.1.returned = q.count ∧ served.1.buffer.length = q.length ∧
      served.1.buffer ++ served.2.reader.remaining = s.reader.remaining ∧
      served.2.kept = none ∧ served.2.reader.Flowing := by
  intro served
  have out := filled s.reader q.length
  obtain ⟨fine, length, still⟩ := out.meetsIfFlowing flowing enough
  have split := conversationBytes out.conversation
  rw [← out.bytesOfSteps] at split
  have whole : (s.reader.fill q.length).bytes ++ buffer.drop (s.reader.fill q.length).bytes.length =
      (s.reader.fill q.length).bytes := by
    rw [length, ← size, List.drop_length, List.append_nil]
  have positive : 0 < q.size := Nat.pos_of_ne_zero fun zero => due (.inl zero)
  have ran : served = _ := serveAsked (by rw [clear]; simpa using due) buffer
  rw [ran]
  refine ⟨?_, (congrArg List.length whole).trans length, (congrArg (· ++ _) whole).trans split,
    fine, still⟩
  simp only [fine, length]
  exact Nat.mul_div_cancel_left _ positive

theorem serveIntoFlowing {s : ElementSource} (clear : s.kept = none) (flowing : s.reader.Flowing)
    {asked : List (Request × Bytes)}
    (due : ∀ p ∈ asked, ¬p.1.Void ∧ p.2.length = p.1.length)
    (enough : (asked.map (·.1.length)).sum ≤ s.reader.remaining.length) :
    let served := s.serveInto asked
    served.1.map Filling.returned = asked.map (·.1.count) ∧
      served.1.flatMap Filling.buffer ++ served.2.reader.remaining = s.reader.remaining ∧
      (served.1.flatMap Filling.buffer).length = (asked.map (·.1.length)).sum := by
  induction asked generalizing s with
  | nil => exact ⟨rfl, rfl, rfl⟩
  | cons p rest ih =>
    obtain ⟨⟨real, size⟩, due⟩ := List.forall_mem_cons.mp due
    rw [List.map_cons, List.sum_cons] at enough
    obtain ⟨returned, length, split, kept, still⟩ :=
      serveFlowing clear flowing real size (Nat.le_trans (Nat.le_add_right _ _) enough)
    have lengths := congrArg List.length split
    rw [List.length_append, length] at lengths
    obtain ⟨others, remaining, total⟩ := ih kept still due (by omega)
    refine ⟨?_, ?_, ?_⟩
    · rw [serveInto, List.map_cons, List.map_cons, returned, others]
    · rw [serveInto, List.flatMap_cons, List.append_assoc, remaining, split]
    · rw [serveInto, List.flatMap_cons, List.length_append, length, total, List.map_cons,
        List.sum_cons]

end ElementSource

theorem savedThenLoadedWhole (data : Bytes) (portions : List WriteAction)
    (writes : List WriteRequest) (chunks : List ReadAction) (reads : List (Request × Bytes))
    (split : writes.flatMap WriteRequest.bytes = data) (offers : ∀ w ∈ writes, ¬w.request.Void)
    (willing : (Writer.ofActions portions).Willing)
    (delivers : (Reader.ofActions chunks).remaining =
      ((ElementSink.ofWriter (.ofActions portions)).serveAll writes).2.writer.taken)
    (flowing : (Reader.ofActions chunks).Flowing)
    (wants : ∀ p ∈ reads, ¬p.1.Void ∧ p.2.length = p.1.length)
    (total : (reads.map (·.1.length)).sum = data.length) :
    let saved := (ElementSink.ofWriter (.ofActions portions)).serveAll writes
    let loaded := (ElementSource.ofReader (.ofActions chunks)).serveInto reads
    (saved.1.map Draining.returned = writes.map (·.request.count) ∧ saved.2.writer.taken = data) ∧
    (loaded.1.map Filling.returned = reads.map (·.1.count) ∧
      loaded.1.flatMap Filling.buffer = data) ∧
    (∀ (r : Ruleset) (s : Script) (e : Engine), s.writes = writes →
      let ran := (r.saveStream (.ofActions portions) (.done ())).run s e
      let status := s.statusOf e (.saveStream r.handle false true)
      Trace.drainings ran.trace = saved.1 ∧
        ran.value = ((EngineError.check status).mapError .engine, saved.2.writer)) ∧
    ∀ (s : Script) (e : Engine), s.reads.map (fun q => (q, ElementSource.freshBuffer q)) = reads →
      s.statusOf e .setUp = 0 →
      Trace.fillings ((Ruleset.loadStream (.ofActions chunks)).run s e).trace = loaded.1 := by
  intro saved loaded
  obtain ⟨answered, taken, fine⟩ : _ ∧ saved.2.writer.taken = data ∧ saved.2.kept = none :=
    split ▸ ElementSink.serveAllWilling (s := .ofWriter (.ofActions portions)) rfl willing offers
  have there : (Reader.ofActions chunks).remaining = data := delivers.trans taken
  obtain ⟨returned, all, length⟩ := ElementSource.serveIntoFlowing
    (s := .ofReader (.ofActions chunks)) rfl flowing wants (by
      rw [total, ← there]
      exact Nat.le_refl _)
  have buffers : loaded.1.flatMap Filling.buffer = data := by
    refine (List.append_inj_left (all.trans (List.append_nil _).symm) ?_).trans there
    exact length.trans (total.trans (congrArg List.length there.symm))
  refine ⟨⟨answered, taken⟩, ⟨returned, buffers⟩, ?_, ?_⟩
  · rintro r s e rfl
    refine ⟨(saveDrainings r (.ofActions portions) (.done ()) s e).1, ?_⟩
    have ended : saveFault ((ElementSink.ofWriter (.ofActions portions)).serveAll s.writes).2
        (.done ()) = none := by
      rw [saveFault.eq_def, fine]
      rfl
    simp only [saveStreamRun, ended]
    rfl
  · rintro s e rfl granted
    rw [loadFillings, if_pos granted]
    rfl

theorem sevenBytesSavedThenLoaded :
    let writes : List WriteRequest := [⟨⟨2, 2⟩, [1, 2, 3, 4]⟩, ⟨⟨3, 1⟩, [5, 6, 7]⟩]
    let reads : List (Request × Bytes) := [(⟨1, 2⟩, [0, 0]), (⟨5, 1⟩, [0, 0, 0, 0, 0])]
    let portions : List WriteAction :=
      [.accept 1, .fault ⟨.interrupted, none⟩, .accept 9, .accept 2]
    let chunks : List ReadAction :=
      [.fault ⟨.interrupted, none⟩, .data [1], .data [2, 3, 4], .data [5, 6, 7]]
    ((ElementSink.ofWriter (.ofActions portions)).serveAll writes).2.writer.taken =
        [1, 2, 3, 4, 5, 6, 7] ∧
      ((ElementSource.ofReader (.ofActions chunks)).serveInto reads).1.flatMap Filling.buffer =
        [1, 2, 3, 4, 5, 6, 7] := by
  intro writes reads portions chunks
  have whole := savedThenLoadedWhole [1, 2, 3, 4, 5, 6, 7] portions writes chunks reads rfl
    (by decide) (by decide) (by decide +kernel) (by decide) (by decide) rfl
  exact ⟨whole.1.2, whole.2.1.2⟩

end ScanEngine

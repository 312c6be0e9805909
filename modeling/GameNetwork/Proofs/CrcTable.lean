import GameNetwork.CrcTable
import GameNetwork.Lib.Runs

namespace GameNetwork.Proofs
open CRC32

variable {ι : Type} [DecidableEq ι] {s s' : Statics} {t t' : Thread} {p p' : Program ι}
  {action : ThreadAction ι} {i : ι} {p_data : List UInt8} {n : Nat} {dividend : UInt8}

/-- The entry of a dividend is the one `InitTable` computes. -/
def Stored (s : Statics) (dividend : UInt8) : Prop := s.table dividend = table dividend

/-- No entry that was filled is lost. -/
def Fills (s s' : Statics) : Prop := ∀ dividend, Stored s dividend → Stored s' dividend

/-- What a thread can rely on, and has computed. -/
def SoundThread (s : Statics) : Thread → Prop
  | .idle | .initTable _ => True
  | .filling n _ => ∀ dividend : UInt8, dividend.toNat < n → Stored s dividend
  | .summing remainder rest p_data =>
    (∀ dividend, Stored s dividend) ∧
      ∃ front, p_data = front ++ rest ∧ remainder = front.foldl tableStep initialRemainder
  | .done crc p_data => crc = getCRCTableBased p_data

/-- The flag is set only when the whole table is filled. -/
def SoundStatics (s : Statics) : Prop := s.isTableInit = true → ∀ dividend, Stored s dividend

structure SoundProgram (p : Program ι) : Prop where
  statics : SoundStatics p.statics
  threads : ∀ i, SoundThread p.statics (p.threads i)

theorem fills_refl (s : Statics) : Fills s s := fun _ h => h

theorem stored_store (s : Statics) (dividend : UInt8) : Stored (s.store dividend) dividend := by
  simp [Stored, Statics.store, table]

theorem store_fills (s : Statics) (dividend : UInt8) : Fills s (s.store dividend) := by
  intro other h
  by_cases ho : other = dividend
  · rw [ho]
    exact stored_store s dividend
  · simpa [Stored, Statics.store, ho] using h

/-- On a full table the loop of `GetCRCTableBased` does what it should. -/
theorem tableStep_stored (h : ∀ dividend, Stored s dividend) : s.tableStep = tableStep := by
  funext remainder byte
  rw [Statics.tableStep, tableStep, h]

theorem SoundThread.mono (h : SoundThread s t) (hf : Fills s s') : SoundThread s' t := by
  cases t with
  | idle | initTable => trivial
  | filling n p_data => exact fun dividend hn => hf dividend (h dividend hn)
  | summing remainder rest p_data => exact ⟨fun dividend => hf dividend (h.1 dividend), h.2⟩
  | done crc p_data => exact h

theorem turn_filling (h : SoundThread s (.filling n p_data)) :
    SoundThread (s.store (UInt8.ofNat n)) (.filling (n + 1) p_data) := by
  intro dividend hlt
  by_cases hn : dividend.toNat = n
  · rw [← hn, UInt8.ofNat_toNat]
    exact stored_store s dividend
  · exact store_fills s _ dividend (h dividend (by omega))

/-- A turn keeps what the threads rely on, the others' as well as its own. -/
theorem turn_sound (hs : SoundStatics s) (h : SoundThread s t) (ht : t.turn s = some (s', t')) :
    Fills s s' ∧ SoundStatics s' ∧ SoundThread s' t' := by
  cases t with
  | idle => cases ht
  | done => cases ht
  | initTable p_data =>
    rw [Thread.turn] at ht
    split at ht
    · rename_i hflag
      cases ht
      exact ⟨fills_refl s, hs, hs hflag, [], rfl, rfl⟩
    · cases ht
      exact ⟨fills_refl s, hs, fun _ hlt => absurd hlt (Nat.not_lt_zero _)⟩
  | filling n p_data =>
    rw [Thread.turn] at ht
    split at ht
    · cases ht
      exact ⟨store_fills s _, fun hflag dividend => store_fills s _ dividend (hs hflag dividend),
        turn_filling h⟩
    · -- the loop has ended, so every dividend has been stored
      rename_i hn
      cases ht
      have hall : ∀ dividend, Stored s dividend := fun dividend => h dividend (by
        have := dividend.toNat_lt
        omega)
      exact ⟨fills_refl s, fun _ => hall, hall, [], rfl, rfl⟩
  | summing remainder rest p_data =>
    obtain ⟨hall, front, hdata, hremainder⟩ := h
    cases rest with
    | nil =>
      cases ht
      refine ⟨fills_refl s, hs, ?_⟩
      rw [SoundThread, getCRCTableBased, hremainder, hdata, List.append_nil]
    | cons byte rest =>
      cases ht
      refine ⟨fills_refl s, hs, hall, front ++ [byte], by simp [hdata], ?_⟩
      rw [tableStep_stored hall, List.foldl_append, hremainder]
      rfl

theorem program_step_sound (h : SoundProgram p) (hp : p.step action = some p') :
    SoundProgram p' := by
  cases action with
  | call i p_data =>
    obtain ⟨t, ht, rfl⟩ := Option.map_eq_some_iff.mp hp
    refine ⟨h.statics, fun j => ?_⟩
    by_cases hj : j = i
    · subst hj
      have hcalled : t = .initTable p_data := by
        unfold Thread.call at ht
        split at ht <;> cases ht
        · rfl
        · rfl
      simp [hcalled, SoundThread]
    · simpa [hj] using h.threads j
  | turn i =>
    obtain ⟨⟨s, t⟩, ht, rfl⟩ := Option.map_eq_some_iff.mp hp
    obtain ⟨hfills, hs, hsound⟩ := turn_sound h.statics (h.threads i) ht
    refine ⟨hs, fun j => ?_⟩
    by_cases hj : j = i
    · subst hj
      simpa using hsound
    · simpa [hj] using (h.threads j).mono hfills

omit [DecidableEq ι] in
theorem start_sound : SoundProgram ({} : Program ι) where
  statics h := by cases h
  threads _ := trivial

/-- The turns a call has left, if it does not find the table filled. -/
def turnsLeft : Thread → Nat
  | .idle | .done _ _ => 0
  | .initTable p_data => 1 + (257 + (p_data.length + 1))
  | .filling n p_data => 256 - n + 1 + (p_data.length + 1)
  | .summing _ rest _ => rest.length + 1

/-- A call for the CRC of some data has not returned. -/
def Calling (p_data : List UInt8) : Thread → Prop
  | .idle | .done _ _ => False
  | .initTable data | .filling _ data | .summing _ _ data => data = p_data

/-- A thread in a call can always go on, and comes closer to its end. -/
theorem turn_taken (s : Statics) (h : Calling p_data t) :
    ∃ s' t', t.turn s = some (s', t') ∧
      (Calling p_data t' ∧ turnsLeft t' < turnsLeft t ∨ ∃ crc, t' = .done crc p_data) := by
  cases t with
  | idle => cases h
  | done => cases h
  | initTable data =>
    obtain rfl : data = p_data := h
    rw [Thread.turn]
    split
    · exact ⟨_, _, rfl, .inl ⟨rfl, by simp only [turnsLeft]; omega⟩⟩
    · exact ⟨_, _, rfl, .inl ⟨rfl, by simp only [turnsLeft]; omega⟩⟩
  | filling n data =>
    obtain rfl : data = p_data := h
    rw [Thread.turn]
    split
    · exact ⟨_, _, rfl, .inl ⟨rfl, by simp only [turnsLeft]; omega⟩⟩
    · exact ⟨_, _, rfl, .inl ⟨rfl, by simp only [turnsLeft]; omega⟩⟩
  | summing remainder rest data =>
    obtain rfl : data = p_data := h
    cases rest with
    | nil => exact ⟨_, _, rfl, .inr ⟨_, rfl⟩⟩
    | cons byte rest => exact ⟨_, _, rfl, .inl ⟨rfl, Nat.lt_succ_self _⟩⟩

/-- On its own turns alone, a call returns. -/
theorem call_returns (p : Program ι) (h : Calling p_data (p.threads i)) :
    ∃ n p' crc, Runs.run Program.step p (List.replicate n (.turn i)) = some p' ∧
      p'.threads i = .done crc p_data := by
  generalize hleft : turnsLeft (p.threads i) = left
  induction left using Nat.strong_induction_on generalizing p with
  | _ left ih =>
    obtain ⟨s, t, ht, hnext⟩ := turn_taken p.statics h
    have hstep : p.step (.turn i) =
        some { statics := s, threads := Function.update p.threads i t } := by
      rw [Program.step, ht]
      rfl
    rcases hnext with ⟨hcalling, hless⟩ | ⟨crc, rfl⟩
    · obtain ⟨n, p', crc, hrun, hdone⟩ := ih (turnsLeft t) (hleft ▸ hless)
        { statics := s, threads := Function.update p.threads i t } (by simpa using hcalling)
        (by simp)
      exact ⟨n + 1, p', crc, by rw [List.replicate_succ, Runs.run_cons hstep, hrun], hdone⟩
    · exact ⟨1, _, crc, by rw [List.replicate_one, Runs.run_cons hstep, Runs.run], by simp⟩

/-- However the threads of a program take turns, whoever fills the table and whenever the flag is
set: every CRC that is returned is the one of the filled table, and every call returns if its
thread goes on. -/
theorem checksums_right {actions : List (ThreadAction ι)}
    (hr : Runs.run Program.step ({} : Program ι) actions = some p) :
    (∀ i crc p_data, p.threads i = .done crc p_data → crc = getCRCTableBased p_data) ∧
    ∀ i p_data, Calling p_data (p.threads i) →
      ∃ n p', Runs.run Program.step p (List.replicate n (.turn i)) = some p' ∧
        p'.threads i = .done (getCRCTableBased p_data) p_data := by
  have hsound : SoundProgram p :=
    Runs.invariant (fun _ _ _ h hs => program_step_sound h hs) start_sound hr
  have hdone {q : Program ι} (hq : SoundProgram q) {i : ι} {crc : UInt32} {p_data : List UInt8}
      (h : q.threads i = .done crc p_data) : crc = getCRCTableBased p_data := by
    have hthread := hq.threads i
    rwa [h] at hthread
  refine ⟨fun i crc p_data h => hdone hsound h, fun i p_data h => ?_⟩
  obtain ⟨n, p', crc, hrun, hend⟩ := call_returns p h
  have hsound' : SoundProgram p' :=
    Runs.invariant (fun _ _ _ h hs => program_step_sound h hs) hsound hrun
  exact ⟨n, p', hrun, by rw [hend, hdone hsound' hend]⟩

def isDone : Thread → Bool
  | .done _ _ => true
  | _ => false

/-- Two threads find the table empty and fill it turn by turn, the one's stores between the
other's. -/
theorem two_fill_table :
    let actions := [.call true [1, 2, 3], .call false [4, 5, 6]] ++
      (List.replicate 262 [ThreadAction.turn true, .turn false]).flatten
    ∃ p, Runs.run Program.step ({} : Program Bool) actions = some p ∧
      (isDone (p.threads true) && isDone (p.threads false)) = true ∧
      ∀ i crc p_data, p.threads i = .done crc p_data → crc = getCRCTableBased p_data := by
  intro actions
  have hrun : (Runs.run Program.step ({} : Program Bool) actions).map
      (fun p => isDone (p.threads true) && isDone (p.threads false)) = some true := by
    decide +kernel
  obtain ⟨p, hp, hd⟩ := Option.map_eq_some_iff.mp hrun
  exact ⟨p, hp, hd, (checksums_right hp).1⟩

end GameNetwork.Proofs

import ShapeBindings.Project.Sources
import ShapeBindings.Proofs.Files.Requests

/-!
# What jobs end with

`Job.outcome` is the result of a job on a machine and the machine afterwards.  `Job.Ends` says the same of a job that
starts with any transcript, so a job in several steps can be taken apart (`Ends.bind_cases`).  To load a table reads
files and nothing else (`outcome_loadTable`).
-/

namespace ShapeBindings

namespace Job

variable {α β ε : Type} {j : Job (StateM Machine) α} {f : α → Job (StateM Machine) β} {m m' : Machine}

/-- The result of a job on a machine, and the machine afterwards. -/
def outcome (j : Job (StateM Machine) α) (m : Machine) : Except Failure α × Machine :=
  let ((res, _), m') := j.start m
  (res, m')

/-- A job has a result on a machine and leaves another one, for one of the transcripts that it can start with. -/
def Ends (j : Job (StateM Machine) α) (m : Machine) (res : Except Failure α) (m' : Machine) : Prop :=
  ∃ t t', StateT.run (ExceptT.run j) t m = ((res, t'), m')

theorem ends_outcome (j : Job (StateM Machine) α) (m : Machine) : j.Ends m (j.outcome m).1 (j.outcome m).2 :=
  ⟨{}, _, rfl⟩

/-! ### The steps of a job -/

theorem run_bind (t : Transcript) (m : Machine) :
    StateT.run (ExceptT.run (j >>= f)) t m =
      StateT.run (ExceptT.bindCont f (StateT.run (ExceptT.run j) t m).1.1) (StateT.run (ExceptT.run j) t m).1.2
        (StateT.run (ExceptT.run j) t m).2 := rfl

/-- Of two jobs the first fails, or the second goes on with its result. -/
theorem Ends.bind_cases {res : Except Failure β} (h : (j >>= f).Ends m res m') :
    (∃ e, res = .error e ∧ j.Ends m (.error e) m') ∨ ∃ a m₁, j.Ends m (.ok a) m₁ ∧ (f a).Ends m₁ res m' := by
  obtain ⟨t, t', h⟩ := h
  rw [run_bind] at h
  cases hj : StateT.run (ExceptT.run j) t m with
  | mk out m₁ =>
    obtain ⟨res₁, t₁⟩ := out
    rw [hj] at h
    cases res₁ with
    | error e =>
      cases h
      exact .inl ⟨e, rfl, t, t₁, hj⟩
    | ok a => exact .inr ⟨a, m₁, ⟨t, t₁, hj⟩, t₁, t', h⟩

theorem Ends.pure_eq {a : α} {res : Except Failure α} (h : (pure a : Job (StateM Machine) α).Ends m res m') :
    res = .ok a ∧ m' = m := by
  obtain ⟨t, t', h⟩ := h
  cases h
  exact ⟨rfl, rfl⟩

theorem Ends.throw_eq {e : Failure} {res : Except Failure α} (h : (throw e : Job (StateM Machine) α).Ends m res m') :
    res = .error e ∧ m' = m := by
  obtain ⟨t, t', h⟩ := h
  cases h
  exact ⟨rfl, rfl⟩

theorem Ends.request_bind {x : StateM Machine α} {res : Except Failure β} (h : (request x >>= f).Ends m res m') :
    ∃ a m₁, x m = (a, m₁) ∧ (f a).Ends m₁ res m' := by
  rcases h.bind_cases with ⟨e, -, t, t', hx⟩ | ⟨a, m₁, ⟨t, t', hx⟩, hf⟩
  · cases hx
  · cases hx
    exact ⟨_, _, rfl, hf⟩

theorem Ends.report_eq {records : List LogRecord} {res : Except Failure Unit}
    (h : (report records : Job (StateM Machine) Unit).Ends m res m') : res = .ok () ∧ m' = m := by
  obtain ⟨t, t', h⟩ := h
  cases h
  exact ⟨rfl, rfl⟩

theorem Ends.print_eq {text : String} {res : Except Failure Unit}
    (h : (print text : Job (StateM Machine) Unit).Ends m res m') : res = .ok () ∧ m' = m := by
  obtain ⟨t, t', h⟩ := h
  cases h
  exact ⟨rfl, rfl⟩

theorem Ends.report_bind {records : List LogRecord} {f : Unit → Job (StateM Machine) β} {res : Except Failure β}
    (h : (report records >>= f).Ends m res m') : (f ()).Ends m res m' := by
  rcases h.bind_cases with ⟨e, -, he⟩ | ⟨a, m₁, ha, hf⟩
  · cases he.report_eq.1
  · obtain ⟨hok, rfl⟩ := ha.report_eq
    cases hok
    exact hf

theorem Ends.printLine_bind {line : String} {f : Unit → Job (StateM Machine) β} {res : Except Failure β}
    (h : (printLine line >>= f).Ends m res m') : (f ()).Ends m res m' := by
  rcases h.bind_cases with ⟨e, -, he⟩ | ⟨a, m₁, ha, hf⟩
  · cases he.print_eq.1
  · obtain ⟨hok, rfl⟩ := ha.print_eq
    cases hok
    exact hf

theorem Ends.orFail_cases {failure : ε → Failure} {x : Except ε α} {res : Except Failure α}
    (h : (orFail failure x : Job (StateM Machine) α).Ends m res m') : res = x.mapError failure ∧ m' = m := by
  cases x with
  | error e => exact h.throw_eq
  | ok a => exact h.pure_eq

/-- The job goes on with a value, or fails with what is made of an error. -/
theorem Ends.orFail_bind {failure : ε → Failure} {x : Except ε α} {res : Except Failure β}
    (h : (orFail failure x >>= f).Ends m res m') :
    (∃ e, x = .error e ∧ res = .error (failure e) ∧ m' = m) ∨ ∃ a, x = .ok a ∧ (f a).Ends m res m' := by
  cases x with
  | error e =>
    rcases h.bind_cases with ⟨e', rfl, he⟩ | ⟨a, m₁, ha, -⟩
    · obtain ⟨hres, hm⟩ := he.throw_eq
      cases hres
      exact .inl ⟨e, rfl, rfl, hm⟩
    · cases ha.throw_eq.1
  | ok a => exact .inr ⟨a, rfl, h⟩

/-- A job whose result does not count, and what follows it. -/
theorem Ends.discard_bind {f : PUnit → Job (StateM Machine) β} {res : Except Failure β}
    (h : (discard j >>= f).Ends m res m') :
    (∃ e, res = .error e ∧ j.Ends m (.error e) m') ∨ ∃ a m₁, j.Ends m (.ok a) m₁ ∧ (f ()).Ends m₁ res m' := by
  rw [discard, LawfulFunctor.map_const, Function.comp_apply, bind_map_left] at h
  exact h.bind_cases

/-! ### Jobs that only read -/

/-- A job has one result on a machine, whatever it starts with, and leaves the machine alone. -/
def OnlyReads (j : Job (StateM Machine) α) (m : Machine) : Prop :=
  ∃ res, ∀ t, ∃ t', StateT.run (ExceptT.run j) t m = ((res, t'), m)

theorem OnlyReads.bind (hj : j.OnlyReads m) (hf : ∀ a, (f a).OnlyReads m) : (j >>= f).OnlyReads m := by
  obtain ⟨res, hj⟩ := hj
  cases res with
  | error e =>
    refine ⟨.error e, fun t => ?_⟩
    obtain ⟨t', ht⟩ := hj t
    refine ⟨t', ?_⟩
    rw [run_bind, ht]
    rfl
  | ok a =>
    obtain ⟨res, hf⟩ := hf a
    refine ⟨res, fun t => ?_⟩
    obtain ⟨t₁, ht₁⟩ := hj t
    obtain ⟨t', ht'⟩ := hf t₁
    refine ⟨t', ?_⟩
    rw [run_bind, ht₁]
    exact ht'

theorem onlyReads_pure (a : α) (m : Machine) : (pure a : Job (StateM Machine) α).OnlyReads m := ⟨_, fun t => ⟨t, rfl⟩⟩

theorem onlyReads_request {x : StateM Machine α} (h : (x m).2 = m) : (request x).OnlyReads m := by
  refine ⟨.ok (x m).1, fun t => ⟨t, ?_⟩⟩
  have hrun : StateT.run (ExceptT.run (request x)) t m = ((.ok (x m).1, t), (x m).2) := rfl
  rw [hrun, h]

theorem onlyReads_report (records : List LogRecord) (m : Machine) :
    (report records : Job (StateM Machine) Unit).OnlyReads m :=
  ⟨_, fun _ => ⟨_, rfl⟩⟩

theorem onlyReads_orFail (failure : ε → Failure) (x : Except ε α) (m : Machine) :
    (orFail failure x : Job (StateM Machine) α).OnlyReads m := by
  cases x <;> exact ⟨_, fun t => ⟨t, rfl⟩⟩

/-- A job that only reads ends as it does with an empty transcript. -/
theorem OnlyReads.outcome_eq {res : Except Failure α} (hj : j.OnlyReads m) (h : j.Ends m res m') :
    j.outcome m = (res, m) ∧ m' = m := by
  obtain ⟨t, t', h⟩ := h
  obtain ⟨res', hall⟩ := hj
  obtain ⟨_, ht⟩ := hall t
  obtain ⟨_, hstart⟩ := hall {}
  rw [ht] at h
  cases h
  refine ⟨?_, rfl⟩
  unfold outcome start
  rw [hstart]

end Job

/-! ### Loading a table -/

theorem Machine.readText_eq {p : Path} {m m' : Machine} {res : Except OsError String}
    (h : (Disk.readText p : StateM Machine _) m = (res, m')) : m' = m := by
  obtain ⟨content, m₁, hm₁, h⟩ := bind_cases h
  obtain rfl : m = m₁ := congrArg Prod.snd hm₁
  cases content with
  | error e =>
    cases h
    rfl
  | ok bytes =>
    dsimp only at h
    cases hd : Text.decode? bytes <;> rw [hd] at h <;> cases h <;> rfl

namespace Config

variable {c : Config} {base : Path} {m m' : Machine} {res : Except Failure Table}

theorem onlyReads_loadTable (c : Config) (base : Path) (m : Machine) :
    (c.loadTable base : Job (StateM Machine) Table).OnlyReads m := by
  unfold loadTable
  extract_lets path
  have hread : (Job.request (Disk.readText path) : Job (StateM Machine) _).OnlyReads m :=
    Job.onlyReads_request (Machine.readText_eq rfl)
  refine hread.bind fun content => ?_
  split
  · refine (Job.onlyReads_orFail _ _ m).bind fun text => ?_
    exact (Job.onlyReads_report _ m).bind fun _ => Job.onlyReads_orFail _ _ m
  · refine (Job.onlyReads_orFail _ _ m).bind fun text => ?_
    exact (Job.onlyReads_orFail _ _ m).bind fun file => Job.onlyReads_pure _ m

theorem outcome_loadTable (h : (c.loadTable base : Job (StateM Machine) Table).Ends m res m') :
    (c.loadTable base).outcome m = (res, m) ∧ m' = m :=
  (onlyReads_loadTable c base m).outcome_eq h

theorem source_of_loadTable {t : Table} (h : (c.loadTable base : Job (StateM Machine) Table).Ends m (.ok t) m') :
    (∃ text, Header.parse c.symbolPrefix text = .ok t) ∨
      ∃ text file, TableFile.parse text = .ok file ∧ t = file.descriptors := by
  unfold loadTable at h
  extract_lets path at h
  obtain ⟨content, _, -, h⟩ := h.request_bind
  split at h
  · rcases h.orFail_bind with ⟨e, -, he, -⟩ | ⟨text, -, h⟩
    · cases he
    · have hparse := h.report_bind.orFail_cases.1
      refine .inl ⟨text, ?_⟩
      cases hp : Header.parse c.symbolPrefix text with
      | error e =>
        rw [hp] at hparse
        cases hparse
      | ok t' =>
        rw [hp] at hparse
        cases hparse
        rfl
  · rcases h.orFail_bind with ⟨e, -, he, -⟩ | ⟨text, -, h⟩
    · cases he
    · rcases h.orFail_bind with ⟨e, -, he, -⟩ | ⟨file, hfile, h⟩
      · cases he
      · cases h.pure_eq.1
        exact .inr ⟨text, file, hfile, rfl⟩

end Config

end ShapeBindings

import Mathlib.Data.Finset.Card
import Mathlib.Data.Finset.Dedup
import WindowReduction.Proofs.CacheSoundness

/-!
# Histories of a cache

A cache is used by any number of operations, one after the other. Whatever they are, each comes down
to requests, one by one, and clearings; a plan requests the programs of its passes up to the first
pass that fails. The records of these steps tell which programs a cache holds, how many, and when
two requests were answered with the same object.

Main statements: `Plan.exists_areRequests` (what a plan requests),
`Cache.requestedSinceClear_run_concat` (what each operation adds), `Cache.evolves_run` (operations
come down to requests and clearings), `Evolves.serial_eq_iff` (when two answers are the same object),
`Cache.history_exact`.
-/

namespace WindowReduction

/-! ## Operations and records -/

/-- What can be done with a cache. -/
inductive CacheOp where
  | request (d : Descriptor)
  | execute (p : Plan) (input : Tensor)
  | clear
  | size

/-- What has happened to a cache: a request was answered with an entry, or all programs were
forgotten. -/
inductive CacheRecord where
  | served (d : Descriptor) (entry : Entry)
  | cleared

/-- The cache after some operations, the records of what happened to it and what was reported. -/
structure CacheRun where
  cache : Cache
  records : List CacheRecord
  events : List Event

/-- The requests of a plan. Nothing is requested after a pass that fails. -/
def Plan.requests : List Descriptor → Tensor → Cache → List CacheRecord
  | [], _, _ => []
  | d :: rest, input, cache =>
    let served := cache.request d
    let later := match served.entry.program.execute input with
      | .error _ => []
      | .ok output => Plan.requests rest output served.cache
    .served d served.entry :: later

/-- Does one operation. -/
def CacheOp.run (c : Cache) : CacheOp → CacheRun
  | .request d => ⟨(c.request d).cache, [.served d (c.request d).entry], (c.request d).events⟩
  | .execute p input =>
    ⟨(p.execute input c).cache, Plan.requests p.passes input c, (p.execute input c).events⟩
  | .clear => ⟨c.clear, [.cleared], []⟩
  | .size => ⟨c, [], []⟩

/-- Does operations in order. -/
def Cache.run (c : Cache) : List CacheOp → CacheRun
  | [] => ⟨c, [], []⟩
  | op :: rest =>
    let first := op.run c
    let later := first.cache.run rest
    ⟨later.cache, first.records ++ later.records, first.events ++ later.events⟩

/-- What is requested since the last clearing, after one more record. -/
def CacheRecord.track (requested : List Descriptor) : CacheRecord → List Descriptor
  | served d _ => d :: requested
  | cleared => []

/-- The descriptors requested since the last clearing, the latest first. -/
def requestedSinceClear (records : List CacheRecord) : List Descriptor :=
  records.foldl CacheRecord.track []

/-- The number of programs that were built because the cache had none. -/
def missCount (events : List Event) : Nat :=
  events.countP fun
    | .cacheMiss _ => true
    | _ => false

theorem missCount_append (first rest : List Event) :
    missCount (first ++ rest) = missCount first + missCount rest :=
  List.countP_append

/-- Operations in two stretches are run one stretch after the other. -/
theorem Cache.run_append (c : Cache) (first rest : List CacheOp) :
    c.run (first ++ rest) = ⟨((c.run first).cache.run rest).cache,
      (c.run first).records ++ ((c.run first).cache.run rest).records,
      (c.run first).events ++ ((c.run first).cache.run rest).events⟩ := by
  induction first generalizing c with
  | nil => rfl
  | cons op first ih =>
      rw [List.cons_append]
      simp only [Cache.run, ih, List.append_assoc]

/-! ## What operations record -/

@[simp] theorem CacheOp.records_request (d : Descriptor) (c : Cache) :
    (CacheOp.run c (.request d)).records = [.served d (c.request d).entry] := rfl

@[simp] theorem CacheOp.records_clear (c : Cache) :
    (CacheOp.run c .clear).records = [.cleared] := rfl

@[simp] theorem CacheOp.records_size (c : Cache) : (CacheOp.run c .size).records = [] := rfl

/-- The records are of requests for the given descriptors, one after the other, and of nothing
else. -/
inductive AreRequests : List CacheRecord → List Descriptor → Prop
  | nil : AreRequests [] []
  | cons {d : Descriptor} {entry : Entry} {records : List CacheRecord} {ds : List Descriptor}
      (h : AreRequests records ds) : AreRequests (.served d entry :: records) (d :: ds)

section Requests

variable {passes ds : List Descriptor} {records : List CacheRecord} {input : Tensor} {c : Cache}

/-- A plan that runs to its end requests the programs of all its passes. -/
theorem Plan.areRequests_of_ok {out : Tensor}
    (h : (Plan.runPasses passes input c).result = .ok out) :
    AreRequests (Plan.requests passes input c) passes := by
  induction passes generalizing input c with
  | nil => exact .nil
  | cons d rest ih =>
      rw [Plan.runPasses] at h
      rw [Plan.requests]
      cases hrun : (c.request d).entry.program.execute input with
      | error halt =>
          rw [hrun] at h
          cases h
      | ok output =>
          rw [hrun] at h
          exact .cons (ih h)

/-- A plan that fails requests the programs of its passes up to the one that fails. -/
theorem Plan.areRequests_of_error {halt : Halt}
    (h : (Plan.runPasses passes input c).result = .error halt) :
    ∃ done d rest t, passes = done ++ d :: rest
      ∧ (Plan.runPasses done input c).result = .ok t
      ∧ ((Plan.runPasses done input c).cache.request d).entry.program.execute t = .error halt
      ∧ AreRequests (Plan.requests passes input c) (done ++ [d]) := by
  induction passes generalizing input c with
  | nil => cases h
  | cons d rest ih =>
      rw [Plan.runPasses] at h
      cases hrun : (c.request d).entry.program.execute input with
      | error halt' =>
          rw [hrun] at h
          cases h
          refine ⟨[], d, rest, input, rfl, rfl, hrun, ?_⟩
          rw [Plan.requests, hrun]
          exact .cons .nil
      | ok output =>
          rw [hrun] at h
          rcases ih h with ⟨done, d', rest', t, rfl, hdone, hfails, hrequests⟩
          refine ⟨d :: done, d', rest', t, rfl, ?_, ?_, ?_⟩
          · rw [Plan.runPasses, hrun]
            exact hdone
          · rw [Plan.runPasses, hrun]
            exact hfails
          · rw [Plan.requests, hrun]
            exact .cons hrequests

/-- A plan requests the programs of its first passes, and those of all passes if it runs to its
end. -/
theorem Plan.exists_areRequests (passes : List Descriptor) (input : Tensor) (c : Cache) :
    ∃ taken, taken <+: passes ∧ AreRequests (Plan.requests passes input c) taken
      ∧ ∀ out, (Plan.runPasses passes input c).result = .ok out → taken = passes := by
  cases hresult : (Plan.runPasses passes input c).result with
  | ok out =>
      exact ⟨passes, List.prefix_refl passes, Plan.areRequests_of_ok hresult, fun _ _ => rfl⟩
  | error halt =>
      rcases Plan.areRequests_of_error hresult with ⟨done, d, rest, t, rfl, -, -, hrequests⟩
      refine ⟨done ++ [d], ⟨rest, by simp⟩, hrequests, ?_⟩
      intro out hout
      cases hout

theorem AreRequests.not_mem_cleared (h : AreRequests records ds) :
    CacheRecord.cleared ∉ records := by
  induction h with
  | nil => exact List.not_mem_nil
  | cons _ ih => exact List.not_mem_cons_of_ne_of_not_mem nofun ih

/-- The requested descriptors come before those that were requested earlier, the latest first. -/
theorem AreRequests.foldl_track (h : AreRequests records ds) (requested : List Descriptor) :
    records.foldl CacheRecord.track requested = ds.reverse ++ requested := by
  induction h generalizing requested with
  | nil => rfl
  | cons _ ih => rw [List.foldl_cons, ih, CacheRecord.track, List.reverse_cons, List.append_cons]

/-- What is requested since the last clearing can be followed operation by operation: a request
adds its descriptor, a plan adds those of its first passes, of all of them if it runs to its end,
and a clearing forgets them all. -/
theorem Cache.requestedSinceClear_run_concat (c : Cache) (ops : List CacheOp) :
    (∀ d, requestedSinceClear (c.run (ops ++ [.request d])).records
        = d :: requestedSinceClear (c.run ops).records)
      ∧ (∀ p input, ∃ taken, taken <+: p.passes
          ∧ (∀ out, (p.execute input (c.run ops).cache).result = .ok out → taken = p.passes)
          ∧ requestedSinceClear (c.run (ops ++ [.execute p input])).records
            = taken.reverse ++ requestedSinceClear (c.run ops).records)
      ∧ requestedSinceClear (c.run (ops ++ [.clear])).records = []
      ∧ requestedSinceClear (c.run (ops ++ [.size])).records
          = requestedSinceClear (c.run ops).records := by
  have hlast : ∀ op, requestedSinceClear (c.run (ops ++ [op])).records
      = (CacheOp.run (c.run ops).cache op).records.foldl CacheRecord.track
          (requestedSinceClear (c.run ops).records) := by
    intro op
    rw [Cache.run_append, requestedSinceClear, List.foldl_append, ← requestedSinceClear]
    simp [Cache.run]
  refine ⟨fun d => ?_, fun p input => ?_, ?_, ?_⟩
  · rw [hlast, CacheOp.records_request]
    rfl
  · rcases Plan.exists_areRequests p.passes input (c.run ops).cache with
      ⟨taken, hprefix, hrequests, hall⟩
    refine ⟨taken, hprefix, hall, ?_⟩
    rw [hlast]
    exact hrequests.foldl_track _
  · rw [hlast, CacheOp.records_clear]
    rfl
  · rw [hlast, CacheOp.records_size]
    rfl

end Requests

/-! ## Requests -/

variable {c c₁ c₂ : Cache} {d d' : Descriptor} {records : List CacheRecord}

/-- A request finds an entry and changes nothing, or it builds a program. -/
theorem Cache.request_cases (c : Cache) (d : Descriptor) :
    (∃ entry, c.get? d = some entry ∧ c.request d = ⟨entry, c, []⟩)
      ∨ c.get? d = none ∧ (c.request d).entry = ⟨c.built, Program.build d⟩
        ∧ (c.request d).cache.built = c.built + 1
        ∧ (c.request d).events = .cacheMiss d :: (Building.of d).events := by
  unfold Cache.request
  cases h : c.get? d with
  | some entry => exact Or.inl ⟨entry, rfl, rfl⟩
  | none => exact Or.inr ⟨rfl, rfl, rfl, rfl⟩

theorem Cache.built_request (c : Cache) (d : Descriptor) :
    (c.request d).cache.built = c.built + missCount (c.request d).events := by
  rcases c.request_cases d with ⟨entry, -, hrequest⟩ | ⟨-, -, hbuilt, hevents⟩
  · rw [hrequest]
    rfl
  · rw [hbuilt, hevents]
    rfl

theorem Cache.size_request_add (c : Cache) (d : Descriptor) :
    (c.request d).cache.size + c.built = c.size + (c.request d).cache.built := by
  rw [Cache.size_request]
  rcases c.request_cases d with ⟨entry, hget, hrequest⟩ | ⟨hget, -, hbuilt, -⟩
  · rw [hget, hrequest]
    rfl
  · rw [hget, hbuilt]
    change c.size + 1 + c.built = _
    omega

/-- An entry stays in the cache and is what later requests are answered with. -/
theorem Cache.get?_request_of_some {entry : Entry} (h : c.get? d' = some entry) (d : Descriptor) :
    (c.request d).cache.get? d' = some entry := by
  rw [Cache.get?_request]
  split
  · rename_i hd
    subst hd
    rcases c.request_cases d' with ⟨entry', hget, hrequest⟩ | ⟨hnone, -⟩
    · rw [hrequest, ← hget, h]
    · rw [hnone] at h
      cases h
  · exact h

/-! ## Serial numbers -/

/-- No two entries have one serial number, and none has a number that is still to be given. -/
structure Cache.Distinct (c : Cache) : Prop where
  serial_lt : ∀ {d entry}, c.get? d = some entry → entry.serial < c.built
  serial_inj : ∀ {d d' entry entry'}, c.get? d = some entry → c.get? d' = some entry' →
    entry.serial = entry'.serial → d = d'

/-- Nothing in the cache was built before the program number `first`. -/
structure Cache.BuiltFrom (first : Nat) (c : Cache) : Prop where
  le_built : first ≤ c.built
  le_serial : ∀ {d entry}, c.get? d = some entry → first ≤ entry.serial

theorem Cache.get?_empty (d : Descriptor) : Cache.empty.get? d = none := by
  simp [Cache.empty, Cache.get?]

theorem Cache.distinct_empty : Cache.empty.Distinct where
  serial_lt := by
    intro d entry h
    rw [Cache.get?_empty] at h
    cases h
  serial_inj := by
    intro d d' entry entry' h
    rw [Cache.get?_empty] at h
    cases h

theorem Cache.distinct_clear (c : Cache) : c.clear.Distinct where
  serial_lt := by
    intro d entry h
    rw [Cache.get?_clear] at h
    cases h
  serial_inj := by
    intro d d' entry entry' h
    rw [Cache.get?_clear] at h
    cases h

theorem Cache.builtFrom_clear (c : Cache) : c.clear.BuiltFrom c.built where
  le_built := Nat.le_refl _
  le_serial := by
    intro d entry h
    rw [Cache.get?_clear] at h
    cases h

/-- What a request adds has the next serial number. -/
theorem Cache.Distinct.request (h : c.Distinct) (d : Descriptor) :
    (c.request d).cache.Distinct := by
  rcases c.request_cases d with ⟨entry, -, hrequest⟩ | ⟨-, hentry, hbuilt, -⟩
  · rw [hrequest]
    exact h
  · constructor
    · intro d₁ entry₁ h₁
      rw [Cache.get?_request] at h₁
      rw [hbuilt]
      split at h₁
      · cases h₁
        rw [hentry]
        exact Nat.lt_succ_self _
      · exact Nat.lt_succ_of_lt (h.serial_lt h₁)
    · intro d₁ d₂ entry₁ entry₂ h₁ h₂ heq
      rw [Cache.get?_request] at h₁ h₂
      split at h₁ <;> split at h₂
      · rename_i hd₁ hd₂
        rw [hd₁, hd₂]
      · cases h₁
        rw [hentry] at heq
        exact absurd heq (Nat.ne_of_gt (h.serial_lt h₂))
      · cases h₂
        rw [hentry] at heq
        exact absurd heq (Nat.ne_of_lt (h.serial_lt h₁))
      · exact h.serial_inj h₁ h₂ heq

theorem Cache.BuiltFrom.le_serial_request {first : Nat} (h : c.BuiltFrom first)
    (d : Descriptor) : first ≤ (c.request d).entry.serial := by
  rcases c.request_cases d with ⟨entry, hget, hrequest⟩ | ⟨-, hentry, -⟩
  · rw [hrequest]
    exact h.le_serial hget
  · rw [hentry]
    exact h.le_built

theorem Cache.BuiltFrom.request {first : Nat} (h : c.BuiltFrom first) (d : Descriptor) :
    (c.request d).cache.BuiltFrom first where
  le_built := by
    rw [Cache.built_request]
    exact Nat.le_trans h.le_built (Nat.le_add_right _ _)
  le_serial := by
    intro d₁ entry₁ h₁
    rw [Cache.get?_request] at h₁
    split at h₁
    · cases h₁
      exact h.le_serial_request d
    · exact h.le_serial h₁

/-- The number that a request was answered with is not given again. -/
theorem Cache.serial_request_lt (h : c.Distinct) (d : Descriptor) :
    (c.request d).entry.serial < (c.request d).cache.built := by
  apply (h.request d).serial_lt (d := d)
  rw [Cache.get?_request, if_pos rfl]

/-! ## Evolution by requests and clearings -/

/-- A cache becomes another one through the recorded requests and clearings. -/
inductive Evolves : Cache → List CacheRecord → Cache → Prop
  | refl (c : Cache) : Evolves c [] c
  | served {c c' : Cache} {records : List CacheRecord} (d : Descriptor)
      (h : Evolves (c.request d).cache records c') :
      Evolves c (.served d (c.request d).entry :: records) c'
  | cleared {c c' : Cache} {records : List CacheRecord} (h : Evolves c.clear records c') :
      Evolves c (.cleared :: records) c'

theorem Evolves.append {records' : List CacheRecord} (h : Evolves c records c₁)
    (h' : Evolves c₁ records' c₂) : Evolves c (records ++ records') c₂ := by
  induction h with
  | refl c => exact h'
  | served d _ ih => exact .served d (ih h')
  | cleared _ ih => exact .cleared (ih h')

theorem Evolves.exists_of_append {first rest : List CacheRecord}
    (h : Evolves c (first ++ rest) c₂) : ∃ c₁, Evolves c first c₁ ∧ Evolves c₁ rest c₂ := by
  induction first generalizing c with
  | nil => exact ⟨c, .refl c, h⟩
  | cons record first ih =>
      cases h with
      | served d h =>
          rcases ih h with ⟨c₁, hfirst, hrest⟩
          exact ⟨c₁, .served d hfirst, hrest⟩
      | cleared h =>
          rcases ih h with ⟨c₁, hfirst, hrest⟩
          exact ⟨c₁, .cleared hfirst, hrest⟩

/-- A plan does nothing to a cache but request the programs of its passes. -/
theorem Plan.evolves_runPasses (passes : List Descriptor) (input : Tensor) (c : Cache) :
    Evolves c (Plan.requests passes input c) (Plan.runPasses passes input c).cache := by
  -- The passes that follow run on the output of this one and with the cache that it leaves.
  induction passes generalizing input c with
  | nil => exact .refl c
  | cons d rest ih =>
      rw [Plan.requests, Plan.runPasses]
      cases (c.request d).entry.program.execute input with
      | error halt => exact .served d (.refl _)
      | ok output => exact .served d (ih output _)

theorem CacheOp.evolves_run (op : CacheOp) (c : Cache) :
    Evolves c (op.run c).records (op.run c).cache := by
  cases op with
  | request d => exact .served d (.refl _)
  | execute p input => exact Plan.evolves_runPasses p.passes input c
  | clear => exact .cleared (.refl _)
  | size => exact .refl c

/-- All operations come down to requests and clearings. -/
theorem Cache.evolves_run (c : Cache) (ops : List CacheOp) :
    Evolves c (c.run ops).records (c.run ops).cache := by
  induction ops generalizing c with
  | nil => exact .refl c
  | cons op rest ih => exact (op.evolves_run c).append (ih (op.run c).cache)

namespace Evolves

theorem distinct (h : Evolves c records c₁) (hc : c.Distinct) : c₁.Distinct := by
  induction h with
  | refl c => exact hc
  | served d _ ih => exact ih (hc.request d)
  | cleared _ ih => exact ih (Cache.distinct_clear _)

theorem built_le (h : Evolves c records c₁) : c.built ≤ c₁.built := by
  induction h with
  | refl c => exact Nat.le_refl _
  | served d _ ih =>
      rw [Cache.built_request] at ih
      omega
  | cleared _ ih => exact ih

theorem builtFrom {first : Nat} (h : Evolves c records c₁) (hc : c.BuiltFrom first) :
    c₁.BuiltFrom first := by
  induction h with
  | refl c => exact hc
  | served d _ ih => exact ih (hc.request d)
  | cleared _ ih =>
      refine ih ⟨hc.le_built, fun hget => ?_⟩
      rw [Cache.get?_clear] at hget
      cases hget

/-- Without a clearing entries stay. -/
theorem get?_of_not_cleared {entry : Entry} (h : Evolves c records c₁)
    (hclear : CacheRecord.cleared ∉ records) (hget : c.get? d = some entry) :
    c₁.get? d = some entry := by
  induction h with
  | refl c => exact hget
  | served d' _ ih =>
      exact ih (fun hmem => hclear (List.mem_cons_of_mem _ hmem))
        (Cache.get?_request_of_some hget d')
  | cleared _ _ => exact absurd List.mem_cons_self hclear

/-- After a clearing only younger programs are given. -/
theorem builtFrom_of_cleared (h : Evolves c records c₁) (hclear : CacheRecord.cleared ∈ records) :
    c₁.BuiltFrom c.built := by
  induction h with
  | refl c => cases hclear
  | served d _ ih =>
      rename_i c c' records h
      have hmem : CacheRecord.cleared ∈ records := by
        rcases List.mem_cons.1 hclear with heq | hmem
        · cases heq
        · exact hmem
      have hlater := ih hmem
      have hle : c.built ≤ (c.request d).cache.built := by
        rw [Cache.built_request]
        exact Nat.le_add_right _ _
      exact ⟨Nat.le_trans hle hlater.le_built, fun hget => Nat.le_trans hle (hlater.le_serial hget)⟩
  | cleared h _ => exact h.builtFrom (Cache.builtFrom_clear _)

/-- Two requests are answered with the same object exactly when they are for one descriptor and no
clearing came between them. -/
theorem serial_eq_iff (hc : c.Distinct) (h : Evolves (c.request d).cache records c₂) :
    (c.request d).entry.serial = (c₂.request d').entry.serial
      ↔ d = d' ∧ CacheRecord.cleared ∉ records := by
  have hself : (c.request d).cache.get? d = some (c.request d).entry := by
    rw [Cache.get?_request, if_pos rfl]
  have hlt := Cache.serial_request_lt hc d
  by_cases hclear : CacheRecord.cleared ∈ records
  · -- All that the later cache holds was built after the clearing, so after the first request.
    have hyounger := (h.builtFrom_of_cleared hclear).le_serial_request d'
    constructor
    · intro heq
      omega
    · rintro ⟨-, hnot⟩
      exact absurd hclear hnot
  · -- The first object is still held, so the second request finds it, another one, or builds one.
    have hkept := h.get?_of_not_cleared hclear hself
    have hdistinct := h.distinct (hc.request d)
    have hbuilt := h.built_le
    rcases c₂.request_cases d' with ⟨entry, hget, hrequest⟩ | ⟨hnone, hentry, -⟩
    · rw [hrequest]
      constructor
      · intro heq
        exact ⟨hdistinct.serial_inj hkept hget heq, hclear⟩
      · rintro ⟨rfl, -⟩
        rw [hkept] at hget
        rw [Option.some.inj hget]
    · rw [hentry]
      constructor
      · intro heq
        change _ = c₂.built at heq
        omega
      · rintro ⟨rfl, -⟩
        rw [hkept] at hnone
        cases hnone

/-! ### What a cache holds -/

/-- Programs stay those that are built for their descriptors. -/
theorem sound (h : Evolves c records c₁) (hc : c.Sound) : c₁.Sound := by
  induction h with
  | refl c => exact hc
  | served d _ ih => exact ih hc.request
  | cleared _ ih => exact ih (Cache.sound_clear _)

/-- The descriptors with an entry are those requested since the last clearing. -/
theorem isSome_get?_iff {requested : List Descriptor} (h : Evolves c records c₁)
    (hc : ∀ d, (c.get? d).isSome ↔ d ∈ requested) (d : Descriptor) :
    (c₁.get? d).isSome ↔ d ∈ records.foldl CacheRecord.track requested := by
  induction h generalizing requested with
  | refl c => exact hc d
  | served d' _ ih =>
      apply ih
      intro d
      rw [Cache.get?_request, CacheRecord.track, List.mem_cons]
      by_cases hd : d = d'
      · simp [hd]
      · simp [hd, hc d]
  | cleared _ ih =>
      apply ih
      intro d
      simp [CacheRecord.track]

/-- The number of entries is the number of these descriptors. -/
theorem size_eq_card {requested : List Descriptor} (h : Evolves c records c₁)
    (hc : ∀ d, (c.get? d).isSome ↔ d ∈ requested) (hsize : c.size = requested.toFinset.card) :
    c₁.size = (records.foldl CacheRecord.track requested).toFinset.card := by
  induction h generalizing requested with
  | refl c => exact hsize
  | served d' h ih =>
      have hkeys := (Evolves.served d' (.refl _)).isSome_get?_iff hc
      refine ih hkeys ?_
      rw [Cache.size_request, CacheRecord.track, List.toFinset_cons, Finset.card_insert_eq_ite]
      simp [hc d', hsize]
  | cleared _ ih =>
      apply ih
      · intro d
        simp [CacheRecord.track]
      · simp [CacheRecord.track, Cache.size, Cache.clear]

/-- Requests add their descriptors to those with an entry. -/
theorem isSome_get?_of_areRequests {ds : List Descriptor} (h : Evolves c records c₁)
    (hrequests : AreRequests records ds) (d : Descriptor) :
    (c₁.get? d).isSome ↔ (c.get? d).isSome ∨ d ∈ ds := by
  have hkeys : ∀ d, (c.get? d).isSome ↔ d ∈ c.entries.keys := by
    simp [Cache.get?]
  rw [h.isSome_get?_iff hkeys, hrequests.foldl_track, List.mem_append, List.mem_reverse, hkeys,
    or_comm]

/-- Without a clearing each program that is built stays. -/
theorem size_add_built (h : Evolves c records c₁) (hclear : CacheRecord.cleared ∉ records) :
    c₁.size + c.built = c.size + c₁.built := by
  induction h with
  | refl c => rfl
  | served d _ ih =>
      rename_i c c' records h
      have hrest := ih fun hmem => hclear (List.mem_cons_of_mem _ hmem)
      have hfirst := Cache.size_request_add c d
      omega
  | cleared _ _ => exact absurd List.mem_cons_self hclear

end Evolves

/-! ## What operations report -/

theorem missCount_halt (halt : Halt) : missCount halt.events = 0 := by
  unfold Halt.events
  split <;> rfl

/-- A plan reports a miss for each program that is built. -/
theorem Plan.built_runPasses (passes : List Descriptor) (input : Tensor) (c : Cache) :
    (Plan.runPasses passes input c).cache.built
      = c.built + missCount (Plan.runPasses passes input c).events := by
  induction passes generalizing input c with
  | nil => rfl
  | cons d rest ih =>
      have hfirst := c.built_request d
      rw [Plan.runPasses]
      cases (c.request d).entry.program.execute input with
      | error halt =>
          change (c.request d).cache.built = c.built + missCount (_ ++ halt.events)
          rw [missCount_append, missCount_halt]
          exact hfirst
      | ok output =>
          have hrest := ih output (c.request d).cache
          change (Plan.runPasses rest output _).cache.built = c.built + missCount (_ ++ _)
          rw [missCount_append]
          omega

theorem CacheOp.built_run (op : CacheOp) (c : Cache) :
    (op.run c).cache.built = c.built + missCount (op.run c).events := by
  cases op with
  | request d => exact c.built_request d
  | execute p input => exact Plan.built_runPasses p.passes input c
  | clear => rfl
  | size => rfl

namespace Cache

/-- Operations report a miss for each program that is built. -/
theorem built_run (c : Cache) (ops : List CacheOp) :
    (c.run ops).cache.built = c.built + missCount (c.run ops).events := by
  induction ops generalizing c with
  | nil => rfl
  | cons op rest ih =>
      have hfirst := op.built_run c
      have hrest := ih (op.run c).cache
      change ((op.run c).cache.run rest).cache.built = c.built + missCount (_ ++ _)
      rw [missCount_append]
      omega

/-! ## Stretches without a clearing -/

theorem not_mem_records_run (c : Cache) {ops : List CacheOp} (h : CacheOp.clear ∉ ops) :
    CacheRecord.cleared ∉ (c.run ops).records := by
  induction ops generalizing c with
  | nil => exact List.not_mem_nil
  | cons op rest ih =>
      have hrest := ih (op.run c).cache fun hmem => h (List.mem_cons_of_mem _ hmem)
      have hfirst : CacheRecord.cleared ∉ (op.run c).records := by
        cases op with
        | request d => simp
        | execute p input =>
            rcases Plan.exists_areRequests p.passes input c with ⟨taken, -, hrequests, -⟩
            exact hrequests.not_mem_cleared
        | clear => exact absurd List.mem_cons_self h
        | size => simp
      exact fun hmem => (List.mem_append.1 hmem).elim hfirst hrest

/-- A new cache and one that was just cleared hold nothing. -/
theorem isFresh_run {ops : List CacheOp} (h : ops = [] ∨ ∃ earlier, ops = earlier ++ [.clear]) :
    (Cache.empty.run ops).cache.size = 0 ∧ ∀ d, (Cache.empty.run ops).cache.get? d = none := by
  rcases h with rfl | ⟨earlier, rfl⟩
  · exact ⟨rfl, get?_empty⟩
  · rw [run_append]
    exact ⟨rfl, get?_clear _⟩

/-- In a stretch without a clearing as many programs are built as descriptors are requested, if it
begins with an empty cache. -/
theorem missCount_of_fresh (hsize : c.size = 0) (hget : ∀ d, c.get? d = none) {ops : List CacheOp}
    (h : CacheOp.clear ∉ ops) :
    missCount (c.run ops).events = (requestedSinceClear (c.run ops).records).toFinset.card := by
  have hevolves := c.evolves_run ops
  have hkept := hevolves.size_add_built (c.not_mem_records_run h)
  have hnone : ∀ d, (c.get? d).isSome ↔ d ∈ ([] : List Descriptor) := by
    simp [hget]
  have hcard := hevolves.size_eq_card hnone hsize
  have hbuilt := c.built_run ops
  rw [requestedSinceClear, ← hcard]
  omega

/-! ## The history of a new cache -/

/-- Whatever is done with a new cache, it holds the programs of exactly the descriptors requested
since the last clearing, as many as there are such descriptors, each the one built for its
descriptor; two requests are answered with the same object exactly when they are for one descriptor
and no clearing came between them; and a stretch without a clearing builds as many programs as
descriptors are requested in it. -/
theorem history_exact (ops : List CacheOp) :
    (∀ d, ((empty.run ops).cache.get? d).isSome
        ↔ d ∈ requestedSinceClear (empty.run ops).records)
      ∧ (empty.run ops).cache.size
          = (requestedSinceClear (empty.run ops).records).toFinset.card
      ∧ (∀ d entry, (empty.run ops).cache.get? d = some entry →
          entry.program = Program.build d ∧ entry.program.descriptor = d)
      ∧ (∀ before between after d d' entry entry',
          (empty.run ops).records
              = before ++ .served d entry :: (between ++ .served d' entry' :: after) →
          (entry.serial = entry'.serial ↔ d = d' ∧ CacheRecord.cleared ∉ between))
      ∧ ∀ earlier stretch, ops = earlier ++ stretch →
          (earlier = [] ∨ ∃ before, earlier = before ++ [.clear]) → CacheOp.clear ∉ stretch →
          missCount ((empty.run earlier).cache.run stretch).events
            = (requestedSinceClear
                ((empty.run earlier).cache.run stretch).records).toFinset.card := by
  have hevolves := empty.evolves_run ops
  have hnone : ∀ d, (empty.get? d).isSome ↔ d ∈ ([] : List Descriptor) := by
    simp [get?_empty]
  refine ⟨hevolves.isSome_get?_iff hnone, hevolves.size_eq_card hnone rfl, ?_, ?_, ?_⟩
  · intro d entry hget
    have hprogram := hevolves.sound sound_empty d entry hget
    exact ⟨hprogram, by rw [hprogram, Program.build_descriptor]⟩
  · intro before between after d d' entry entry' hrecords
    rw [hrecords] at hevolves
    rcases hevolves.exists_of_append with ⟨c₁, hbefore, hfirst⟩
    cases hfirst with
    | served _ hlater =>
        rcases hlater.exists_of_append with ⟨c₂, hbetween, hsecond⟩
        cases hsecond with
        | served _ _ => exact hbetween.serial_eq_iff (hbefore.distinct distinct_empty)
  · intro earlier stretch _ hearlier hstretch
    rcases isFresh_run hearlier with ⟨hsize, hget⟩
    exact missCount_of_fresh hsize hget hstretch

end Cache

end WindowReduction

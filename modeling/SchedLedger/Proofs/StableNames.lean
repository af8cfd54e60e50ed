import SchedLedger.Proofs.Utf8
import SchedLedger.Replay.Tasks
import Mathlib.Data.List.Nodup
import Mathlib.Data.List.Induction

/-! Names of processes stay the same while a report is made. A process has the name that was declared for it, or else
the one that its file had when it was asked for first; the file is not read again, so what becomes of it in the meantime
does not show. -/

namespace SchedLedger

structure NameCall where
  files : Files
  pid : Pid

structure NameAnswer where
  name : String
  asked : List String
deriving DecidableEq

section Paths

theorem joinPath_eq (base name : String) :
    joinPath base name = base ++ (if base.isEmpty || base.endsWith "/" then "" else "/") ++ name := by
  unfold joinPath
  split <;> simp

theorem toList_toString_pid (pid : Pid) : (toString pid).toList = Nat.toDigits 10 pid.toNat := by
  change (toString pid.toNat).toList = _
  rw [Nat.toString_eq_ofList_toDigits, String.toList_ofList]

/-- Each process has a directory of its own: its number in decimal digits, which hold no slash. -/
theorem Procs.fileOf_eq (p : Procs) (pid : Pid) (name : String) :
    p.fileOf pid name = joinPath p.root (toString pid) ++ "/" ++ name := by
  have hslash : ∀ c ∈ (joinPath p.root (toString pid)).toList.getLast?, c ≠ '/' := by
    intro c hc
    have hdigits : Nat.toDigits 10 pid.toNat ≠ [] := Nat.toDigits_ne_nil
    rw [joinPath_eq, String.toList_append, toList_toString_pid, List.getLast?_append_of_ne_nil _ hdigits] at hc
    rintro rfl
    exact absurd (Nat.isDigit_of_mem_toDigits (by decide) (by decide) (List.mem_of_getLast? hc)) (by decide)
  -- a number ends in a digit, so the separator is still to come
  have hends : (joinPath p.root (toString pid)).endsWith "/" = false := by
    rw [String.endsWith_eq_endsWith_toSlice, String.Slice.endsWith_string_eq_false_iff, String.copy_toSlice]
    rintro ⟨front, hfront⟩
    refine hslash '/' ?_ rfl
    rw [← hfront]
    exact List.getLast?_concat
  have hne : (joinPath p.root (toString pid)).isEmpty = false := by
    rw [String.isEmpty_eq_false_iff, joinPath_eq]
    intro h
    have hnil := congrArg String.toList h
    rw [String.toList_append, toList_toString_pid] at hnil
    exact Nat.toDigits_ne_nil (List.append_eq_nil_iff.1 hnil).2
  rw [fileOf, joinPath_eq, hends, hne]
  rfl

theorem Procs.commPath_inj {p : Procs} {pid pid' : Pid} (h : p.commPath pid = p.commPath pid') : pid = pid' := by
  rw [commPath, commPath, fileOf_eq, fileOf_eq, joinPath_eq, joinPath_eq, String.append_left_inj,
    String.append_left_inj, String.append_right_inj] at h
  have hdigits := congrArg String.toList h
  rw [toList_toString_pid, toList_toString_pid] at hdigits
  apply UInt32.toNat_inj.1
  rw [← Nat.ofDigitChars_ten_toDigits (n := pid.toNat), hdigits, Nat.ofDigitChars_ten_toDigits]

end Paths

namespace Procs

variable {p : Procs} {who : Pid → Prop} {history : List NameCall} {cache : NameCache} {pid : Pid} {call : NameCall}

theorem inquire_idle (p : Procs) (cache : NameCache) : p.inquire 0 cache = .done ("idle", cache) :=
  rfl

theorem inquire_of_known {name : String} (hreal : pid ≠ 0) (hknown : cache.lookup pid = some name) :
    p.inquire pid cache = .done (name, cache) := by
  rw [inquire, if_neg hreal, hknown]

theorem inquire_of_new (hreal : pid ≠ 0) (hnew : cache.lookup pid = none) :
    p.inquire pid cache =
      .ask (p.commPath pid) fun found => .done (nameIn pid found, cache ++ [(pid, nameIn pid found)]) := by
  rw [inquire, if_neg hreal, hnew]

/-- What a process tree remembers after some calls, when it knew no name before. -/
def remembered (p : Procs) (calls : List NameCall) : NameCache :=
  calls.foldl (fun cache call => (p.nameOf call.files call.pid cache).2) []

/-- The name is the one in the file at the time of the call: its content without the white space around it, or a name
made of the number of the process if the file cannot be read or has nothing else. -/
def NameRead (p : Procs) (call : NameCall) (name : String) : Prop :=
  (∀ data, call.files.readText (p.commPath call.pid) = .ok data → Text.trim data ≠ "" → name = Text.trim data) ∧
  ((∀ data, call.files.readText (p.commPath call.pid) = .ok data → Text.trim data = "") → name = s!"pid-{call.pid}")

def firstName (p : Procs) (call : NameCall) : String :=
  nameIn call.pid (call.files (p.commPath call.pid))

theorem nameRead_firstName (p : Procs) (call : NameCall) : p.NameRead call (p.firstName call) := by
  unfold NameRead firstName nameIn Files.readText
  cases textOf (call.files (p.commPath call.pid)) with
  | error e => simp [fallbackName]
  | ok data => by_cases hblank : Text.trim data = "" <;> simp [hblank, fallbackName]

theorem nameIn_ne_empty (pid : Pid) (found : Except IoError Bytes) : nameIn pid found ≠ "" := by
  have hfallback : fallbackName pid ≠ "" := by
    intro h
    have hparts : toString "pid-" = "" ∧ toString pid = "" := by simpa [fallbackName] using h
    exact absurd hparts.1 (by decide)
  unfold nameIn
  split
  · exact hfallback
  · split
    · exact hfallback
    · next hne => exact hne

/-- For each process of these, the cache has the name that was read at the first call for it. -/
def Remembers (p : Procs) (who : Pid → Prop) (history : List NameCall) (cache : NameCache) : Prop :=
  ∀ pid, pid ≠ 0 → who pid →
    cache.lookup pid = (history.find? (·.pid = pid)).map p.firstName

theorem lookup_nameOf_of_ne {files : Files} {pid' : Pid} (h : pid ≠ pid') :
    (p.nameOf files pid' cache).2.lookup pid = cache.lookup pid := by
  rw [nameOf]
  by_cases hidle : pid' = 0
  · rw [hidle, inquire_idle, Inquiry.result]
  · cases hlookup : cache.lookup pid' with
    | some name => rw [inquire_of_known hidle hlookup, Inquiry.result]
    | none =>
      rw [inquire_of_new hidle hlookup]
      simp [Inquiry.result, List.lookup_append, List.lookup_cons, beq_eq_false_iff_ne.2 h]

theorem find?_concat_of_ne (h : call.pid ≠ pid) :
    (history ++ [call]).find? (·.pid = pid) = history.find? (·.pid = pid) := by
  rw [List.find?_append, List.find?_cons_of_neg (by simpa using h), List.find?_nil, Option.or_none]

theorem Remembers.nameOf (h : p.Remembers who history cache) (call : NameCall) :
    p.Remembers who (history ++ [call]) (p.nameOf call.files call.pid cache).2 := by
  intro pid hreal hwho
  have hcache := h pid hreal hwho
  by_cases hsame : call.pid = pid
  · subst hsame
    rw [List.find?_append, List.find?_cons_of_pos (by simp), Procs.nameOf]
    cases hfirst : history.find? (·.pid = call.pid) with
    | some first =>
      rw [hfirst, Option.map_some] at hcache
      rw [inquire_of_known hreal hcache]
      exact hcache
    | none =>
      rw [hfirst, Option.map_none] at hcache
      rw [inquire_of_new hreal hcache]
      simp [Inquiry.result, List.lookup_append, hcache, firstName]
  · rw [lookup_nameOf_of_ne (Ne.symm hsame), hcache, find?_concat_of_ne hsame]

theorem remembers_remembered (p : Procs) (who : Pid → Prop) (calls : List NameCall) :
    p.Remembers who calls (p.remembered calls) := by
  induction calls using List.reverseRecOn with
  | nil => exact fun _ _ _ => rfl
  | append_singleton calls call ih =>
    rw [remembered, List.foldl_append]
    exact ih.nameOf call

end Procs

namespace TaskTable

variable {t : TaskTable} {p : Procs} {history calls : List NameCall} {cache : NameCache} {call : NameCall}

def Unnamed (t : TaskTable) (pid : Pid) : Prop :=
  ∀ task, t.get? pid = some task → task.comm = ""

theorem named_or_unnamed (t : TaskTable) (pid : Pid) :
    (∃ task, t.get? pid = some task ∧ task.comm ≠ "") ∨ t.Unnamed pid := by
  by_cases h : t.Unnamed pid
  · exact .inr h
  · exact .inl (by simpa [Unnamed] using h)

def answer (t : TaskTable) (p : Procs) (cache : NameCache) (call : NameCall) : NameAnswer :=
  ⟨(t.nameOf p call.files call.pid cache).1, (t.inquire p call.pid cache).asked call.files⟩

/-- Some calls with their answers, one after another. -/
def serve (t : TaskTable) (p : Procs) : NameCache → List NameCall → List (NameCall × NameAnswer)
  | _, [] => []
  | cache, call :: calls =>
    (call, t.answer p cache call) :: serve t p (t.nameOf p call.files call.pid cache).2 calls

section Answer

theorem inquire_of_named {pid : Pid} {task : DeclaredTask} (hget : t.get? pid = some task) (hname : task.comm ≠ "") :
    t.inquire p pid cache = .done (task.comm, cache) := by
  simp only [inquire, hget, if_neg hname]

theorem inquire_of_unnamed {pid : Pid} (h : t.Unnamed pid) : t.inquire p pid cache = p.inquire pid cache := by
  unfold inquire
  split
  · next task hget => rw [if_pos (h task hget)]
  · rfl

theorem answer_of_named {task : DeclaredTask} (hget : t.get? call.pid = some task) (hname : task.comm ≠ "") :
    t.answer p cache call = ⟨task.comm, []⟩ := by
  rw [answer, nameOf, inquire_of_named hget hname]
  rfl

theorem answer_of_idle (h : t.Unnamed call.pid) (hidle : call.pid = 0) :
    t.answer p cache call = ⟨"idle", []⟩ := by
  rw [answer, nameOf, inquire_of_unnamed h, hidle, Procs.inquire_idle]
  rfl

theorem answer_of_unnamed (h : t.Unnamed call.pid) (hreal : call.pid ≠ 0)
    (hcache : p.Remembers t.Unnamed history cache) :
    (∃ first, (history ++ [call]).find? (·.pid = call.pid) = some first ∧
      (t.answer p cache call).name = p.firstName first) ∧
    (t.answer p cache call).asked = if call.pid ∈ history.map (·.pid) then [] else [p.commPath call.pid] := by
  have hlookup := hcache call.pid hreal h
  rw [answer, nameOf, inquire_of_unnamed h, List.find?_append, List.find?_cons_of_pos (by simp)]
  cases hfirst : history.find? (·.pid = call.pid) with
  | some first =>
    have hpid : first.pid = call.pid := by simpa using List.find?_some hfirst
    have hmem : call.pid ∈ history.map (·.pid) := hpid ▸ List.mem_map_of_mem (List.mem_of_find?_eq_some hfirst)
    rw [hfirst, Option.map_some] at hlookup
    rw [if_pos hmem, Procs.inquire_of_known hreal hlookup]
    exact ⟨⟨first, rfl, rfl⟩, rfl⟩
  | none =>
    have hnew : call.pid ∉ history.map (·.pid) := by
      intro hmem
      obtain ⟨earlier, hearlier, hpid⟩ := List.mem_map.1 hmem
      exact List.find?_eq_none.1 hfirst earlier hearlier (by simpa using hpid)
    rw [hfirst, Option.map_none] at hlookup
    rw [if_neg hnew, Procs.inquire_of_new hreal hlookup]
    exact ⟨⟨call, rfl, rfl⟩, rfl⟩

end Answer

theorem remembers_nameOf (h : p.Remembers t.Unnamed history cache) (call : NameCall) :
    p.Remembers t.Unnamed (history ++ [call]) (t.nameOf p call.files call.pid cache).2 := by
  by_cases hname : t.Unnamed call.pid
  · rw [nameOf, inquire_of_unnamed hname]
    exact h.nameOf call
  · obtain ⟨task, hget, hcomm⟩ := (t.named_or_unnamed call.pid).resolve_right hname
    rw [nameOf, inquire_of_named hget hcomm]
    intro pid hreal hwho
    have hne : call.pid ≠ pid := fun heq => hname (heq ▸ hwho)
    rw [Inquiry.result, h pid hreal hwho, Procs.find?_concat_of_ne hne]

theorem map_fst_serve (t : TaskTable) (p : Procs) (cache : NameCache) (calls : List NameCall) :
    (t.serve p cache calls).map Prod.fst = calls := by
  induction calls generalizing cache with
  | nil => rfl
  | cons call calls ih => rw [serve, List.map_cons, ih]

theorem exists_cache (h : p.Remembers t.Unnamed history cache) {i : Nat} {s : NameCall × NameAnswer}
    (hi : (t.serve p cache calls)[i]? = some s) :
    ∃ cache', p.Remembers t.Unnamed (history ++ calls.take i) cache' ∧ calls[i]? = some s.1 ∧
      s.2 = t.answer p cache' s.1 := by
  induction calls generalizing history cache i with
  | nil => simp [serve] at hi
  | cons call calls ih =>
    cases i with
    | zero =>
      obtain rfl : (call, t.answer p cache call) = s := by simpa [serve] using hi
      exact ⟨cache, by rwa [List.take_zero, List.append_nil], rfl, rfl⟩
    -- the first call joins the history of the others
    | succ i =>
      rw [serve, List.getElem?_cons_succ] at hi
      obtain ⟨cache', hcache', hcall, hanswer⟩ := ih (remembers_nameOf h call) hi
      refine ⟨cache', ?_, hcall, hanswer⟩
      rwa [List.take_succ_cons, ← List.singleton_append, ← List.append_assoc]

section Served

variable {earlier : List NameCall} {i : Nat} {s s' : NameCall × NameAnswer}

theorem served_of_named (hs : s ∈ t.serve p (p.remembered earlier) calls) {task : DeclaredTask}
    (hget : t.get? s.1.pid = some task) (hname : task.comm ≠ "") : s.2 = ⟨task.comm, []⟩ := by
  obtain ⟨i, hi⟩ := List.getElem?_of_mem hs
  obtain ⟨cache, -, -, hanswer⟩ := exists_cache (p.remembers_remembered t.Unnamed earlier) hi
  rw [hanswer, answer_of_named hget hname]

theorem served_of_idle (hs : s ∈ t.serve p (p.remembered earlier) calls) (h : t.Unnamed s.1.pid)
    (hidle : s.1.pid = 0) : s.2 = ⟨"idle", []⟩ := by
  obtain ⟨i, hi⟩ := List.getElem?_of_mem hs
  obtain ⟨cache, -, -, hanswer⟩ := exists_cache (p.remembers_remembered t.Unnamed earlier) hi
  rw [hanswer, answer_of_idle h hidle]

theorem served_of_unnamed (hi : (t.serve p (p.remembered earlier) calls)[i]? = some s) (h : t.Unnamed s.1.pid)
    (hreal : s.1.pid ≠ 0) :
    (∃ first, (earlier ++ calls).find? (·.pid = s.1.pid) = some first ∧
      s.2.name = p.firstName first) ∧
    s.2.asked = if s.1.pid ∈ (earlier ++ calls.take i).map (·.pid) then [] else [p.commPath s.1.pid] := by
  obtain ⟨cache, hcache, hcall, hanswer⟩ := exists_cache (p.remembers_remembered t.Unnamed earlier) hi
  obtain ⟨⟨first, hfirst, hname⟩, hasked⟩ := answer_of_unnamed h hreal hcache
  rw [hanswer]
  refine ⟨⟨first, ?_, hname⟩, hasked⟩
  have hsplit : calls = calls.take i ++ [s.1] ++ calls.drop (i + 1) := by
    obtain ⟨hlt, hget⟩ := List.getElem?_eq_some_iff.1 hcall
    rw [← hget, List.take_append_getElem hlt, List.take_append_drop]
  rw [hsplit, ← List.append_assoc, ← List.append_assoc, List.find?_append, hfirst, Option.some_or]

theorem exists_first (hs : s ∈ t.serve p (p.remembered earlier) calls) (h : t.Unnamed s.1.pid)
    (hreal : s.1.pid ≠ 0) :
    ∃ first, (earlier ++ calls).find? (·.pid = s.1.pid) = some first ∧
      s.2.name = p.firstName first := by
  obtain ⟨i, hi⟩ := List.getElem?_of_mem hs
  exact (served_of_unnamed hi h hreal).1

theorem name_ne_empty (hs : s ∈ t.serve p (p.remembered earlier) calls) : s.2.name ≠ "" := by
  rcases t.named_or_unnamed s.1.pid with ⟨task, hget, hname⟩ | h
  · rw [served_of_named hs hget hname]
    exact hname
  by_cases hidle : s.1.pid = 0
  · rw [served_of_idle hs h hidle]
    decide
  · obtain ⟨first, -, hname⟩ := exists_first hs h hidle
    rw [hname]
    exact Procs.nameIn_ne_empty first.pid _

theorem name_eq_of_pid_eq (hs : s ∈ t.serve p (p.remembered earlier) calls)
    (hs' : s' ∈ t.serve p (p.remembered earlier) calls) (hsame : s.1.pid = s'.1.pid) : s.2.name = s'.2.name := by
  rcases t.named_or_unnamed s.1.pid with ⟨task, hget, hname⟩ | h
  · rw [served_of_named hs hget hname, served_of_named hs' (hsame ▸ hget) hname]
  by_cases hidle : s.1.pid = 0
  · rw [served_of_idle hs h hidle, served_of_idle hs' (hsame ▸ h) (hsame ▸ hidle)]
  · obtain ⟨first, hfirst, hname⟩ := exists_first hs h hidle
    obtain ⟨first', hfirst', hname'⟩ := exists_first hs' (hsame ▸ h) (hsame ▸ hidle)
    rw [← hsame, hfirst, Option.some.injEq] at hfirst'
    rw [hname, hname', hfirst']

theorem asked_cases (hi : (t.serve p (p.remembered earlier) calls)[i]? = some s) :
    s.2.asked = [] ∨ s.2.asked = [p.commPath s.1.pid] ∧ s.1.pid ∉ (calls.take i).map (·.pid) := by
  have hs := List.mem_of_getElem? hi
  rcases t.named_or_unnamed s.1.pid with ⟨task, hget, hname⟩ | h
  · exact .inl (congrArg NameAnswer.asked (served_of_named hs hget hname))
  by_cases hidle : s.1.pid = 0
  · exact .inl (congrArg NameAnswer.asked (served_of_idle hs h hidle))
  · obtain ⟨-, hasked⟩ := served_of_unnamed hi h hidle
    by_cases hold : s.1.pid ∈ (earlier ++ calls.take i).map (·.pid)
    · exact .inl (hasked.trans (if_pos hold))
    · refine .inr ⟨hasked.trans (if_neg hold), fun hmem => hold ?_⟩
      rw [List.map_append]
      exact List.mem_append_right _ hmem

/-- No file is read twice: of two calls that read the same file, the later one would have found its process among the
earlier calls. -/
theorem nodup_asked (t : TaskTable) (p : Procs) (earlier calls : List NameCall) :
    ((t.serve p (p.remembered earlier) calls).flatMap (·.2.asked)).Nodup := by
  rw [List.nodup_flatMap]
  constructor
  · intro s hs
    obtain ⟨i, hi⟩ := List.getElem?_of_mem hs
    rcases asked_cases hi with hasked | ⟨hasked, -⟩ <;> simp [hasked]
  · rw [List.pairwise_iff_getElem]
    intro i j hi hj hlt path hpath hpath'
    rcases asked_cases (List.getElem?_eq_getElem hi) with hnone | ⟨hone, -⟩
    · simp [hnone] at hpath
    rcases asked_cases (List.getElem?_eq_getElem hj) with hnone | ⟨hone', hnew⟩
    · simp [hnone] at hpath'
    simp only [hone, List.mem_singleton] at hpath
    simp only [hone', List.mem_singleton] at hpath'
    -- both calls are for one process, and the later one asks only if none before it did
    have hsame := Procs.commPath_inj (hpath.symm.trans hpath')
    have hcalls : calls.take j = ((t.serve p (p.remembered earlier) calls).take j).map Prod.fst := by
      rw [List.map_take, map_fst_serve]
    rw [hcalls, List.map_map, ← hsame] at hnew
    exact hnew (List.mem_map_of_mem (List.mem_take_iff_getElem.2 ⟨i, by omega, rfl⟩))

end Served

/-- What holds of `served`, the answers that the declared tasks `t` and a process tree with a memory of `earlier`
calls give to `calls`. A declared name is the answer without reading anything, and so is `idle` for the idle task.
Any other process has the name that was in its file at the first call for it, and the file is read at that call and
at no other. -/
structure NamesStable (t : TaskTable) (p : Procs) (earlier calls : List NameCall)
    (served : List (NameCall × NameAnswer)) : Prop where
  calls_eq : served.map Prod.fst = calls
  nonempty : ∀ s ∈ served, s.2.name ≠ ""
  agree : ∀ s ∈ served, ∀ s' ∈ served, s.1.pid = s'.1.pid → s.2.name = s'.2.name
  named : ∀ s ∈ served, ∀ task, t.get? s.1.pid = some task → task.comm ≠ "" → s.2 = ⟨task.comm, []⟩
  idle : ∀ s ∈ served, t.Unnamed s.1.pid → s.1.pid = 0 → s.2 = ⟨"idle", []⟩
  found : ∀ s ∈ served, t.Unnamed s.1.pid → s.1.pid ≠ 0 →
    ∃ first, (earlier ++ calls).find? (·.pid = s.1.pid) = some first ∧ p.NameRead first s.2.name
  asked : ∀ i s, served[i]? = some s → t.Unnamed s.1.pid → s.1.pid ≠ 0 →
    s.2.asked = if s.1.pid ∈ (earlier ++ calls.take i).map (·.pid) then [] else [p.commPath s.1.pid]
  once : (served.flatMap (·.2.asked)).Nodup

/-- Whatever is declared and however the files change between the calls, the names of processes are stable. -/
theorem names_stay_stable (t : TaskTable) (p : Procs) (earlier calls : List NameCall) :
    NamesStable t p earlier calls (t.serve p (p.remembered earlier) calls) where
  calls_eq := t.map_fst_serve p _ calls
  nonempty := fun _ hs => name_ne_empty hs
  agree := fun _ hs _ hs' hsame => name_eq_of_pid_eq hs hs' hsame
  named := fun _ hs _ hget hname => served_of_named hs hget hname
  idle := fun _ hs h hidle => served_of_idle hs h hidle
  found := fun _ hs h hreal => by
    obtain ⟨first, hfirst, hname⟩ := exists_first hs h hreal
    exact ⟨first, hfirst, hname ▸ p.nameRead_firstName first⟩
  asked := fun _ _ hi h hreal => (served_of_unnamed hi h hreal).2
  once := t.nodup_asked p earlier calls

def filledFiles : Files := fun _ => .ok (Text.Utf8.encode "worker\n")

def emptiedFiles : Files := fun _ => .error .notFound

/-- Task 5 was declared without a name, and its file is gone when its name is asked for again. -/
def endedCalls : List NameCall :=
  [⟨filledFiles, 5⟩, ⟨emptiedFiles, 5⟩]

theorem names_stay_stable_of_ended :
    ((TaskTable.ofDeclarations [⟨5, "", none, none⟩]).serve ⟨"/proc", .fallback⟩
      (Procs.remembered ⟨"/proc", .fallback⟩ []) endedCalls).map (·.2) =
        [⟨"worker", [Procs.commPath ⟨"/proc", .fallback⟩ 5]⟩, ⟨"worker", []⟩] := by
  set t := TaskTable.ofDeclarations [⟨5, "", none, none⟩]
  have hstable := names_stay_stable t ⟨"/proc", .fallback⟩ [] endedCalls
  have hunnamed : t.Unnamed 5 := by
    intro task hget
    obtain rfl : ⟨5, "", none, none⟩ = task := Option.some.inj hget
    rfl
  have hread : filledFiles.readText (Procs.commPath ⟨"/proc", .fallback⟩ 5) = .ok "worker\n" := by
    simp only [Files.readText, textOf, filledFiles, Text.Utf8.decode?_encode]
  have hname : ∀ (i : Nat) (s : NameCall × NameAnswer),
      (t.serve ⟨"/proc", .fallback⟩ [] endedCalls)[i]? = some s → s.1.pid = 5 → s.2.name = "worker" := by
    intro i s hi hpid
    obtain ⟨first, hfirst, hfound⟩ :=
      hstable.found s (List.mem_of_getElem? hi) (hpid ▸ hunnamed) (by rw [hpid]; decide)
    rw [hpid] at hfirst
    obtain rfl : ⟨filledFiles, 5⟩ = first := Option.some.inj hfirst
    exact hfound.1 _ hread (by decide)
  have hasked := hstable.asked 0 _ rfl hunnamed (by decide)
  have hasked' := hstable.asked 1 _ rfl hunnamed (by decide)
  refine congrArg₂ (fun a b => [a, b]) ?_ ?_
  · exact congrArg₂ NameAnswer.mk (hname 0 _ rfl rfl) (hasked.trans (if_neg (by decide)))
  · exact congrArg₂ NameAnswer.mk (hname 1 _ rfl rfl) (hasked'.trans (if_pos (by decide)))

end TaskTable

end SchedLedger

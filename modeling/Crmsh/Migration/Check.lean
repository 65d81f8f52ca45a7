import Crmsh.Python

/-!
# The pre-migration check

`crm cluster health sles16` runs `migration.check`.  Three local checks report what they
find to a result handler: `CheckResultInteractiveHandler` prints each finding for a
terminal, `CheckResultJsonHandler` collects them into one JSON document.  Without
`--local` or `--json`, the same command runs on every other node with
`--local --json=oneline`, and `check_remote` reads their answers.  `migrate` starts the
migration only when `check` returns 0.

What the check writes to standard output is a list of writes (`Out`), and a run of it is a
`CheckM`: the writes made and the value returned or the exception raised, the writes made
before an exception staying written.  What the check reads from outside is given: the
match of the version pattern in the output of `corosync -v`, which services are active,
and what `prun` returns for each node, with the value `json.loads` makes of its output
(`JsonValue`).  `check_remote` reads that value with `get` and iterates what it finds, so
an answer that is not a report object raises `AttributeError` or `TypeError` there
(`readAnswer`).

* **`check_result`** — the code `check` returns does not depend on the output format: it is
  the larger of the local verdict (1 when a local check found a problem) and the code the
  other nodes give; the local checks raise `AttributeError` where `corosync -v` prints no
  version, and `check_remote` raises what reading an answer raises;
* **`checkRemote_last_wins`** — the code the other nodes give is the one the last node that
  sets a code sets, not the worst;
* **`migrate_forgets_earlier_nodes`** — so a node that could not be reached is forgotten
  once a later node answers with code 0 in a form that does not decode, and `migrate` does
  what it does on a cluster without other nodes;
* **`migrate_raises_on_unreadable_answer`** — an answer that decodes to something other than
  a report makes `migrate` raise, where a failed check returns 1.
-/

namespace Crmsh

/-- What the check raises: `MigrationFailure` with its message, or a Python exception. -/
inductive CheckError where
  | migrationFailure (msg : String)
  | py (e : PyExc)
  deriving Repr, DecidableEq

/-- A finding as `handle_problem(is_fatal, title, detail)` receives it from the local
checks, and as the JSON handler records it (`is_fatal`, `title`, `descriptions`). -/
structure Problem where
  isFatal : Bool
  title : String
  descriptions : List String
  deriving Repr, DecidableEq

/-- `CheckResultJsonHandler.json_result`: `pass` and `problems`. -/
structure CheckReport where
  pass : Bool
  problems : List Problem
  deriving Repr, DecidableEq

/-- A value as `json.loads` returns it.  A `dict` is the Python dict decoding gives, so a
key stands in it once.  A number is kept as what `check_remote` can observe of it: the text
`print` writes for it, and its truth value. -/
inductive JsonValue where
  | null
  | bool (b : Bool)
  | number (text : String) (nonzero : Bool)
  | str (s : String)
  | list (xs : List JsonValue)
  | dict (kvs : List (String × JsonValue))
  deriving Repr, Inhabited

/-- Python's truth value of a decoded value. -/
def JsonValue.truthy : JsonValue → Bool
  | .null => false
  | .bool b => b
  | .number _ nonzero => nonzero
  | .str s => !s.isEmpty
  | .list xs => !xs.isEmpty
  | .dict kvs => !kvs.isEmpty

/-- `v.get(key, default)`: only a dict has `get`. -/
def JsonValue.get (v : JsonValue) (key : String) (default : JsonValue) : Except PyExc JsonValue :=
  match v with
  | .dict kvs => .ok (((kvs.find? (·.1 = key)).map (·.2)).getD default)
  | _ => .error .attributeError

/-- `for x in v`: the elements of a list, the keys of a dict, the characters of a string;
`None`, a bool or a number is not iterable. -/
def JsonValue.iter : JsonValue → Except PyExc (List JsonValue)
  | .list xs => .ok xs
  | .dict kvs => .ok (kvs.map fun p => .str p.1)
  | .str s => .ok (s.toList.map fun c => .str (String.singleton c))
  | _ => .error .typeError

/-- The colours `write_in_color` writes in. -/
inductive Color where
  | green
  | yellow
  deriving Repr, DecidableEq

/-- One write to standard output: `write_in_color` (the colour's escape codes, written only
on a terminal, left out), `print` of a value (its `str` and a newline),
`sys.stdout.write`, and `json.dump` of a report with its indent. -/
inductive Out where
  | colored (c : Color) (text : String)
  | print (v : JsonValue)
  | raw (text : String)
  | json (report : CheckReport) (indent : Option Nat)
  deriving Repr

/-! ## Runs -/

/-- A run of the check: what it wrote, and the value it returned or the exception it
raised; what was written before an exception stays written. -/
structure CheckM (α : Type) where
  out : List Out
  result : Except CheckError α

instance : Monad CheckM where
  pure a := ⟨[], .ok a⟩
  bind x f :=
    match x.result with
    | .ok a => ⟨x.out ++ (f a).out, (f a).result⟩
    | .error e => ⟨x.out, .error e⟩

instance : MonadExceptOf CheckError CheckM where
  throw e := ⟨[], .error e⟩
  tryCatch x handle :=
    match x.result with
    | .ok _ => x
    | .error e => ⟨x.out ++ (handle e).out, (handle e).result⟩

/-- Writing to standard output. -/
def emit (os : List Out) : CheckM Unit := ⟨os, .ok ()⟩

/-- A Python operation that writes nothing: its value, or the exception it raises. -/
def liftPy {α : Type} (x : Except PyExc α) : CheckM α := ⟨[], x.mapError .py⟩

namespace CheckM

variable {α β : Type}

@[simp] theorem pure_result (a : α) : (pure a : CheckM α).result = .ok a := rfl

@[simp] theorem emit_result (os : List Out) : (emit os).result = .ok () := rfl

@[simp] theorem liftPy_result (x : Except PyExc α) : (liftPy x).result = x.mapError .py := rfl

/-- A run's result is its first part's, then its second part's. -/
@[simp] theorem bind_result (x : CheckM α) (f : α → CheckM β) :
    (x >>= f).result =
      match x.result with
      | .ok a => (f a).result
      | .error e => .error e := by
  rcases x with ⟨o, _ | a⟩ <;> rfl

@[simp] theorem unless_result (c : Bool) (x : CheckM Unit) :
    (unless c do x).result = if c then .ok () else x.result := by
  cases c <;> rfl

@[simp] theorem throw_result (e : CheckError) : (throw e : CheckM α).result = .error e := rfl

@[simp] theorem tryCatch_result (x : CheckM α) (handle : CheckError → CheckM α) :
    (tryCatch x handle).result =
      match x.result with
      | .ok a => .ok a
      | .error e => (handle e).result := by
  rcases x with ⟨o, _ | a⟩ <;> rfl

end CheckM

/-! ## The result handlers -/

/-- A result handler and its state: the JSON handler's indent and `json_result`, or the
interactive handler's `has_problems`. -/
inductive Handler where
  | json (indent : Option Nat) (jsonResult : CheckReport)
  | interactive (hasProblems : Bool)
  deriving Repr, DecidableEq

/-- `log_info(fmt)`: the JSON handler sends it to the debug log, not to standard output. -/
def Handler.logInfo : Handler → String → CheckM Unit
  | .json .., _ => pure ()
  | .interactive _, fmt => emit [.colored .green "[INFO] ", .print (.str fmt)]

/-- `CheckResultInteractiveHandler.handle_problem(is_fatal, title, details)`: `[FAIL]` and
the title, then every line of `details`, indented; it raises `TypeError` after the title
where `details` is not iterable, and `MigrationFailure` after the lines on a fatal problem.
The handler then has problems. -/
def interactiveHandleProblem (isFatal : Bool) (title details : JsonValue) : CheckM Handler := do
  emit [.colored .yellow "[FAIL] ", .print title]
  let lines ← liftPy details.iter
  emit (lines.flatMap fun line => [.raw "       ", .print line])
  if isFatal then throw (.migrationFailure "Unable to start migration.")
  pure (.interactive true)

/-- `handle_problem`: the JSON handler records the problem and no longer passes; the
interactive one prints it. -/
def Handler.handleProblem : Handler → Problem → CheckM Handler
  | .json indent r, p => pure (.json indent ⟨false, r.problems ++ [p]⟩)
  | .interactive _, p =>
    interactiveHandleProblem p.isFatal (.str p.title) (.list (p.descriptions.map .str))

/-- `end`, a keyword of Lean: the JSON handler writes its document and a newline, the
interactive one `[PASS]` when it met no problem. -/
def Handler.finish : Handler → CheckM Unit
  | .json indent r => emit [.json r indent, .raw "\n"]
  | .interactive hasProblems => if hasProblems then pure () else emit [.colored .green "[PASS]\n"]

/-- The code `check` reads off its handler. -/
def Handler.ret : Handler → Int
  | .json _ r => if r.pass then 0 else 1
  | .interactive hasProblems => if hasProblems then 1 else 0

@[simp] theorem Handler.logInfo_result (handler : Handler) (fmt : String) :
    (handler.logInfo fmt).result = .ok () := by
  cases handler <;> rfl

@[simp] theorem Handler.finish_result (handler : Handler) : handler.finish.result = .ok () := by
  cases handler with
  | json => rfl
  | interactive hasProblems => cases hasProblems <;> rfl

/-- The interactive handler raises only where the details are not iterable, or on a fatal
problem. -/
theorem interactiveHandleProblem_result (isFatal : Bool) (title details : JsonValue) :
    (interactiveHandleProblem isFatal title details).result =
      (details.iter.mapError .py).bind fun _ =>
        if isFatal then .error (.migrationFailure "Unable to start migration.")
        else .ok (.interactive true) := by
  simp only [interactiveHandleProblem, CheckM.bind_result, CheckM.liftPy_result, CheckM.emit_result]
  cases details.iter <;> cases isFatal <;> rfl

/-- A recorded problem: the report no longer passes. -/
def CheckReport.record (r : CheckReport) (p : Problem) : CheckReport := ⟨false, r.problems ++ [p]⟩

/-- What a `handle_problem` that does not raise does to a handler. -/
def Handler.record : Handler → Problem → Handler
  | .json indent r, p => .json indent (r.record p)
  | .interactive _, _ => .interactive true

theorem Handler.handleProblem_result {p : Problem} (hp : p.isFatal = false) (handler : Handler) :
    (handler.handleProblem p).result = .ok (handler.record p) := by
  cases handler with
  | json => rfl
  | interactive => simp [Handler.handleProblem, interactiveHandleProblem_result, hp, JsonValue.iter,
      Except.mapError, Handler.record, bind, Except.bind]

/-- **The handlers agree**: after reporting problems, either handler gives the code 1 when
there was one, and its old code otherwise. -/
theorem Handler.ret_foldl_record (ps : List Problem) (handler : Handler) :
    (ps.foldl Handler.record handler).ret = if ps = [] then handler.ret else 1 := by
  induction ps generalizing handler with
  | nil => rfl
  | cons p ps ih =>
    rw [List.foldl_cons, ih]
    cases handler <;> simp [Handler.record, Handler.ret, CheckReport.record]

/-! ## The local checks -/

/-- What the local checks read from the host: the first two groups of the match of
`version\s+'((\d+)(?:\.\d+)*)'` in the output of `corosync -v` (`none` where nothing
matches), and whether a service is active. -/
structure LocalHost where
  versionMatch : Option (String × String)
  serviceActive : String → Bool

/-- The problem `check_dependency_version` reports for the version `version`. -/
def versionProblem (version : String) : Problem :=
  ⟨false, "Corosync version not supported",
    ["Supported version: corosync >= 3", "Actual version:    corosync == " ++ version]⟩

/-- `check_dependency_version`.  Where the pattern does not match, building the message
reads `match.group(1)` on `None`, which raises `AttributeError`. -/
def checkDependencyVersion (host : LocalHost) (handler : Handler) : CheckM Handler := do
  handler.logInfo "Checking dependency version..."
  match host.versionMatch with
  | none => throw (.py .attributeError)
  | some (version, major) =>
    if major ≠ "3" then handler.handleProblem (versionProblem version) else pure handler

/-- The services `check_service_status` asks about, in order. -/
def checkedServices : List String := ["corosync", "pacemaker"]

/-- The problem `check_service_status` reports for the active services. -/
def servicesProblem (activeServices : List String) : Problem :=
  ⟨false, "Cluster services are running", activeServices.map ("* " ++ ·)⟩

/-- `check_service_status`. -/
def checkServiceStatus (host : LocalHost) (handler : Handler) : CheckM Handler := do
  handler.logInfo "Checking service status..."
  let activeServices := checkedServices.filter host.serviceActive
  if activeServices ≠ [] then handler.handleProblem (servicesProblem activeServices)
  else pure handler

/-- `check_unsupported_corosync_features`, which checks nothing yet. -/
def checkUnsupportedCorosyncFeatures (handler : Handler) : CheckM Handler := pure handler

/-- `check_local`: the three checks, then the handler's `end`. -/
def checkLocal (host : LocalHost) (handler : Handler) : CheckM Handler := do
  let handler ← checkDependencyVersion host handler
  let handler ← checkServiceStatus host handler
  let handler ← checkUnsupportedCorosyncFeatures handler
  handler.finish
  pure handler

/-- The problems the local checks report on a host, in order, or the exception they
raise. -/
def localProblems (host : LocalHost) : Except CheckError (List Problem) :=
  match host.versionMatch with
  | none => .error (.py .attributeError)
  | some (version, major) =>
    let activeServices := checkedServices.filter host.serviceActive
    .ok ((if major ≠ "3" then [versionProblem version] else []) ++
      if activeServices ≠ [] then [servicesProblem activeServices] else [])

theorem checkLocal_result (host : LocalHost) (handler : Handler) :
    (checkLocal host handler).result = (localProblems host).map (·.foldl Handler.record handler) := by
  rcases host with ⟨_ | ⟨version, major⟩, active⟩
  · simp [checkLocal, checkDependencyVersion, localProblems, bind, Except.bind, Except.map]
  · by_cases hm : major = "3" <;> by_cases ha : checkedServices.filter active = [] <;>
      simp [checkLocal, checkDependencyVersion, checkServiceStatus, checkUnsupportedCorosyncFeatures,
        localProblems, hm, ha, Handler.handleProblem_result, versionProblem, servicesProblem, bind,
        Except.bind, Except.map, pure, Except.pure]

/-! ## The other nodes -/

/-- What `prun.prun` returns for a node: `SSHError` with its text, or the return code and
the output of the process.  The output is kept as `decode('utf-8', 'backslashreplace')`
shows it, and as `json.loads(stdout.decode('utf-8'))` reads it: `none` where that raises
`UnicodeDecodeError` or `JSONDecodeError`. -/
inductive RemoteResult where
  | sshError (msg : String)
  | process (returncode : Int) (stdout stderr : String) (answer : Option JsonValue)

/-- The line `check_remote` writes above a node's answer. -/
def hostHeader (host : String) : String := "\n------ " ++ host ++ " ------\n"

/-- One problem of a node's answer in `check_remote`: `title` and `descriptions` read with
`get`, then shown by the interactive handler. -/
def showRemoteProblem (_ : Handler) (problem : JsonValue) : CheckM Handler := do
  let title ← liftPy (problem.get "title" (.str ""))
  let details ← liftPy (problem.get "descriptions" .null)
  interactiveHandleProblem false title details

/-- One node's answer in `check_remote`, from the code so far to the code after it.  An
answer that decodes has its problems shown by a fresh interactive handler. -/
def checkRemoteHost (ret : Int) : String × RemoteResult → CheckM Int
  | (host, .sshError e) => do
    emit [.colored .yellow (hostHeader host), .colored .yellow e, .raw "\n"]
    pure 255
  | (host, .process returncode stdout stderr answer) =>
    if returncode > 1 then do
      emit [.colored .yellow (hostHeader host), .print (.str stdout), .colored .yellow stderr,
        .raw "\n"]
      pure returncode
    else
      match answer with
      | none => do
        emit [.colored .yellow (hostHeader host), .print (.str stdout), .colored .yellow stdout,
          .raw "\n"]
        pure returncode
      | some result => do
        let passed ← liftPy (result.get "pass" (.bool false))
        emit [.colored (if passed.truthy then .green else .yellow) (hostHeader host)]
        let problems ← liftPy (← liftPy (result.get "problems" (.list []))).iter
        let handler ← problems.foldlM showRemoteProblem (Handler.interactive false)
        handler.finish
        pure (if passed.truthy then ret else 1)

/-- `check_remote` once the answers of all nodes are in, in the order `prun` lists them. -/
def checkRemote (results : List (String × RemoteResult)) : CheckM Int :=
  results.foldlM checkRemoteHost 0

/-- What `check_remote` reads of one problem: its title, and the lines of its
descriptions. -/
def readProblem (problem : JsonValue) : Except PyExc (JsonValue × List JsonValue) := do
  let title ← problem.get "title" (.str "")
  let lines ← (← problem.get "descriptions" .null).iter
  return (title, lines)

/-- What `check_remote` reads of a decoded answer: whether it passes, or the exception
reading it raises. -/
def readAnswer (result : JsonValue) : Except PyExc Bool := do
  let passed ← result.get "pass" (.bool false)
  let problems ← (← result.get "problems" (.list [])).iter
  let _ ← problems.mapM readProblem
  return passed.truthy

/-- The code one node's answer sets in `check_remote`, if it sets one, or the exception
reading it raises: 255 for a node that could not be reached; the return code where it is
above 1, or where the answer does not decode; 1 for a decoded answer that does not
pass. -/
def hostRet : RemoteResult → Except PyExc (Option Int)
  | .sshError _ => .ok (some 255)
  | .process returncode _ _ answer =>
    if returncode > 1 then .ok (some returncode)
    else
      match answer with
      | none => .ok (some returncode)
      | some result => (readAnswer result).map fun passed => if passed then none else some 1

/-- The code of the other nodes: each node that sets one replaces the one before. -/
def remoteCode (results : List (String × RemoteResult)) : Except PyExc Int :=
  results.foldlM (fun ret r => (hostRet r.2).map (·.getD ret)) 0

theorem showRemoteProblem_result (handler : Handler) (problem : JsonValue) :
    (showRemoteProblem handler problem).result =
      ((readProblem problem).mapError .py).map fun _ => .interactive true := by
  simp only [showRemoteProblem, readProblem, CheckM.bind_result, CheckM.liftPy_result,
    interactiveHandleProblem_result]
  cases problem.get "title" (.str "") with
  | error e => rfl
  | ok title =>
    cases problem.get "descriptions" .null with
    | error e => rfl
    | ok details =>
      simp only [Except.mapError, bind, Except.bind, pure, Except.pure]
      cases details.iter <;> rfl

/-- The loop over a node's problems raises what reading the first unreadable one raises;
otherwise the handler has problems exactly when there was one. -/
theorem foldlM_showRemoteProblem (problems : List JsonValue) (handler : Handler) :
    (problems.foldlM showRemoteProblem handler).result =
      ((problems.mapM readProblem).mapError .py).map fun _ =>
        if problems.isEmpty then handler else .interactive true := by
  induction problems generalizing handler with
  | nil => rfl
  | cons p ps ih =>
    rw [List.foldlM_cons, CheckM.bind_result, showRemoteProblem_result, List.mapM_cons]
    cases readProblem p with
    | error e => rfl
    | ok a =>
      simp only [Except.mapError, Except.map, ih, bind, Except.bind, pure, Except.pure]
      cases ps.mapM readProblem <;> simp

/-- One answer sets the code `hostRet` names, or keeps the code before, or raises what
reading it raises. -/
theorem checkRemoteHost_result (ret : Int) (r : String × RemoteResult) :
    (checkRemoteHost ret r).result = ((hostRet r.2).map (·.getD ret)).mapError .py := by
  rcases r with ⟨host, e | ⟨returncode, stdout, stderr, _ | result⟩⟩
  · rfl
  · by_cases h1 : returncode > 1 <;> simp [checkRemoteHost, hostRet, h1, Except.map, Except.mapError]
  · by_cases h1 : returncode > 1
    · simp [checkRemoteHost, hostRet, h1, Except.map, Except.mapError]
    simp only [checkRemoteHost, hostRet, h1, if_false, readAnswer, CheckM.bind_result,
      CheckM.liftPy_result, CheckM.emit_result, foldlM_showRemoteProblem, Handler.finish_result]
    cases result.get "pass" (.bool false) with
    | error e => rfl
    | ok passed =>
      cases result.get "problems" (.list []) with
      | error e => rfl
      | ok v =>
        simp only [Except.mapError, bind, Except.bind, pure, Except.pure]
        cases v.iter with
        | error e => rfl
        | ok problems =>
          simp only []
          cases problems.mapM readProblem <;> cases passed.truthy <;> rfl

theorem checkRemote_result (results : List (String × RemoteResult)) :
    (checkRemote results).result = (remoteCode results).mapError .py := by
  suffices ∀ ret, (results.foldlM checkRemoteHost ret).result =
      (results.foldlM (fun ret r => (hostRet r.2).map (·.getD ret)) ret).mapError .py from this 0
  induction results with
  | nil => exact fun _ => rfl
  | cons r rs ih =>
    intro ret
    rw [List.foldlM_cons, CheckM.bind_result, checkRemoteHost_result, List.foldlM_cons]
    cases hostRet r.2 with
    | error e => rfl
    | ok c => exact ih _

theorem remoteCode_append (pre post : List (String × RemoteResult)) :
    remoteCode (pre ++ post) = (remoteCode pre).bind fun ret =>
      post.foldlM (fun ret r => (hostRet r.2).map (·.getD ret)) ret := by
  rw [remoteCode, List.foldlM_append]
  rfl

/-- Nodes that set no code keep the code before. -/
theorem foldlM_hostRet_none {post : List (String × RemoteResult)}
    (hpost : ∀ r ∈ post, hostRet r.2 = .ok none) (ret : Int) :
    post.foldlM (fun ret r => (hostRet r.2).map (·.getD ret)) ret = .ok ret := by
  induction post with
  | nil => rfl
  | cons r rs ih =>
    rw [List.foldlM_cons, hpost r (List.mem_cons_self _ _)]
    exact ih fun r' hr' => hpost r' (List.mem_cons_of_mem _ hr')

/-- After the last node that sets a code, the code is that node's, whatever came before. -/
theorem foldlM_hostRet_last {node : String × RemoteResult} {post : List (String × RemoteResult)}
    {code : Int} (hnode : hostRet node.2 = .ok (some code))
    (hpost : ∀ r ∈ post, hostRet r.2 = .ok none) (ret : Int) :
    (node :: post).foldlM (fun ret r => (hostRet r.2).map (·.getD ret)) ret = .ok code := by
  rw [List.foldlM_cons, hnode]
  exact foldlM_hostRet_none hpost code

/-- **The last node that sets a code decides** what `check_remote` returns, whatever the
nodes before it answered, once they are read without raising: a node that could not be
reached (255) or that failed its checks counts for nothing once a later node sets a
code. -/
theorem checkRemote_last_wins {pre post : List (String × RemoteResult)}
    {node : String × RemoteResult} {code : Int} (hnode : hostRet node.2 = .ok (some code))
    (hpost : ∀ r ∈ post, hostRet r.2 = .ok none) :
    (checkRemote (pre ++ node :: post)).result = (checkRemote pre).result.map fun _ => code := by
  rw [checkRemote_result, checkRemote_result, remoteCode_append]
  cases remoteCode pre with
  | error e => rfl
  | ok ret => exact congrArg (Except.mapError CheckError.py) (foldlM_hostRet_last hnode hpost ret)

/-- The check of the other nodes where `alpha` cannot be reached and `beta` answers with
code 0 in a form that does not decode: the code is 0. -/
theorem beta_forgets_unreachable_alpha :
    hostRet (RemoteResult.process 0 "" "" none) = .ok (some 0) ∧
      (∀ r ∈ ([] : List (String × RemoteResult)), hostRet r.2 = .ok none) ∧
      (checkRemote ([("alpha", .sshError "ssh: connect to host alpha port 22: No route to host")] ++
          ("beta", .process 0 "" "" none) :: [])).result =
        (checkRemote [("alpha", .sshError "ssh: connect to host alpha port 22: No route to host")]).result.map
          fun _ => 0 :=
  have hnode : hostRet (RemoteResult.process 0 "" "" none) = .ok (some 0) := rfl
  have hpost : ∀ r ∈ ([] : List (String × RemoteResult)), hostRet r.2 = .ok none :=
    fun _ h => absurd h (List.not_mem_nil _)
  ⟨hnode, hpost, checkRemote_last_wins hnode hpost⟩

/-! ## `check` and `migrate` -/

/-- The value of `--json`: `oneline`, or `pretty`, which `--json` alone also gives. -/
inductive JsonMode where
  | oneline
  | pretty
  deriving Repr, DecidableEq

/-- The arguments of `check` as `argparse` leaves them. -/
structure CheckArgs where
  json : Option JsonMode
  localOnly : Bool

/-- The handler `check` makes for the value of `--json`. -/
def newHandler : Option JsonMode → Handler
  | some .oneline => .json none ⟨true, []⟩
  | some .pretty => .json (some 2) ⟨true, []⟩
  | none => .interactive false

theorem newHandler_ret (json : Option JsonMode) : (newHandler json).ret = 0 := by
  rcases json with _ | _ | _ <;> rfl

/-- `check`.  Without `--local` or `--json` it starts the remote checks, runs the local
ones and reads the other nodes' answers afterwards; otherwise their code is 0. -/
def check (host : LocalHost) (remote : List (String × RemoteResult)) (args : CheckArgs) :
    CheckM Int := do
  let handler := newHandler args.json
  let localOnly := args.localOnly || args.json.isSome
  unless localOnly do emit [.print (.str "------ corosync @ localhost ------")]
  let handler ← checkLocal host handler
  handler.finish
  let ret := handler.ret
  let remoteRet ← if localOnly then pure 0 else checkRemote remote
  pure (if remoteRet > ret then remoteRet else ret)

/-- `migrate`, with the migration of `corosync.conf` given: it runs `check([])` and
migrates only when that returns 0; `MigrationFailure` becomes the code 1, and any other
exception gets out. -/
def migrate (host : LocalHost) (remote : List (String × RemoteResult))
    (migrateCorosyncConf : CheckM Unit) : CheckM Int :=
  tryCatch
    (do
      if 0 ≠ (← check host remote ⟨none, false⟩) then
        throw (.migrationFailure "Unable to start migration.")
      migrateCorosyncConf
      pure 0)
    fun
      | .migrationFailure _ => pure 1
      | e => throw e

/-- **The code `check` returns**: the local checks raise `AttributeError` where
`corosync -v` printed no version; otherwise the code is the larger of the local verdict,
1 when a local check found a problem, and the code of the other nodes, which is 0 with
`--local` or `--json`, and which raises what reading an answer raises.  It is the same
with either handler. -/
theorem check_result (host : LocalHost) (remote : List (String × RemoteResult)) (args : CheckArgs) :
    (check host remote args).result = (localProblems host).bind fun ps =>
      (if args.localOnly || args.json.isSome then .ok 0 else (remoteCode remote).mapError .py).map
        fun remoteRet => max (if ps = [] then 0 else 1) remoteRet := by
  cases hl : args.localOnly || args.json.isSome <;> cases hp : localProblems host <;>
    simp [check, hl, checkLocal_result, hp, Handler.ret_foldl_record, newHandler_ret, Except.map,
      max_def_lt, bind, Except.bind, checkRemote_result]
  cases remoteCode remote <;> simp [Except.mapError, max_def_lt]

theorem check_result_congr (host : LocalHost) {r₁ r₂ : List (String × RemoteResult)}
    (args : CheckArgs) (h : remoteCode r₁ = remoteCode r₂) :
    (check host r₁ args).result = (check host r₂ args).result := by
  cases hl : args.localOnly || args.json.isSome <;> simp [check, hl, checkRemote_result, h]

theorem migrate_result_congr {host : LocalHost} {r₁ r₂ : List (String × RemoteResult)}
    (migrateCorosyncConf : CheckM Unit)
    (h : (check host r₁ ⟨none, false⟩).result = (check host r₂ ⟨none, false⟩).result) :
    (migrate host r₁ migrateCorosyncConf).result = (migrate host r₂ migrateCorosyncConf).result := by
  simp only [migrate, CheckM.tryCatch_result, CheckM.bind_result, h]

/-- Nodes that are read without raising leave some code. -/
theorem foldlM_hostRet_read {pre : List (String × RemoteResult)}
    (hpre : ∀ r ∈ pre, ∃ c, hostRet r.2 = .ok c) (ret : Int) :
    ∃ ret', pre.foldlM (fun ret r => (hostRet r.2).map (·.getD ret)) ret = .ok ret' := by
  induction pre generalizing ret with
  | nil => exact ⟨ret, rfl⟩
  | cons r rs ih =>
    obtain ⟨c, hc⟩ := hpre r (List.mem_cons_self _ _)
    rw [List.foldlM_cons, hc]
    exact ih (fun r' hr' => hpre r' (List.mem_cons_of_mem _ hr')) _

/-- **`migrate` forgets the nodes before the last one that sets a code.**  When a node
answers with code 0 in a form that does not decode, and no node after it sets a code,
`migrate` does what it does on a cluster without other nodes, whatever the nodes before
it answered, a node that could not be reached included, once they are read without
raising. -/
theorem migrate_forgets_earlier_nodes {host : LocalHost} {pre post : List (String × RemoteResult)}
    {node stdout stderr : String} (migrateCorosyncConf : CheckM Unit)
    (hpre : ∀ r ∈ pre, ∃ c, hostRet r.2 = .ok c) (hpost : ∀ r ∈ post, hostRet r.2 = .ok none) :
    (migrate host (pre ++ (node, .process 0 stdout stderr none) :: post) migrateCorosyncConf).result =
      (migrate host [] migrateCorosyncConf).result := by
  obtain ⟨ret, hret⟩ := foldlM_hostRet_read hpre 0
  refine migrate_result_congr _ (check_result_congr _ _ ?_)
  rw [remoteCode_append, remoteCode, hret]
  exact @foldlM_hostRet_last (node, .process 0 stdout stderr none) post 0 rfl hpost ret

/-- A host with corosync 3 and no cluster service running. -/
def quietHost : LocalHost := ⟨some ("3.1.8", "3"), fun _ => false⟩

/-- With `alpha` unreachable alone, `migrate` refuses (code 1); once `beta` answers after it
with code 0 in a form that does not decode, `migrate` migrates as on a lone node. -/
theorem migrate_after_unreachable_alpha :
    (∀ r ∈ [("alpha", RemoteResult.sshError "ssh: connect to host alpha port 22: No route to host")],
        ∃ c, hostRet r.2 = .ok c) ∧
      (∀ r ∈ ([] : List (String × RemoteResult)), hostRet r.2 = .ok none) ∧
      (migrate quietHost [("alpha", .sshError "ssh: connect to host alpha port 22: No route to host")]
        (pure ())).result = .ok 1 ∧
      (migrate quietHost [] (pure ())).result = .ok 0 ∧
      (migrate quietHost
        ([("alpha", .sshError "ssh: connect to host alpha port 22: No route to host")] ++
          ("beta", .process 0 "" "" none) :: []) (pure ())).result =
        (migrate quietHost [] (pure ())).result :=
  have hpre : ∀ r ∈ [("alpha", RemoteResult.sshError "ssh: connect to host alpha port 22: No route to host")],
      ∃ c, hostRet r.2 = .ok c := fun _ h => by
    rw [List.mem_singleton.1 h]
    exact ⟨_, rfl⟩
  have hpost : ∀ r ∈ ([] : List (String × RemoteResult)), hostRet r.2 = .ok none :=
    fun _ h => absurd h (List.not_mem_nil _)
  ⟨hpre, hpost, by decide, by decide, migrate_forgets_earlier_nodes (pure ()) hpre hpost⟩

/-- **An answer `check_remote` cannot read makes `migrate` raise.**  Where the local
checks run through and the nodes before are read, a node whose answer decodes to a value
`check_remote` cannot read (`null`, a list, a problem without `descriptions`) makes
`check` raise, and `migrate` lets the exception out instead of returning 1. -/
theorem migrate_raises_on_unreadable_answer {host : LocalHost} {ps : List Problem}
    {pre post : List (String × RemoteResult)} {node stdout stderr : String} {returncode : Int}
    {answer : JsonValue} {e : PyExc} (migrateCorosyncConf : CheckM Unit)
    (hlocal : localProblems host = .ok ps) (hpre : ∀ r ∈ pre, ∃ c, hostRet r.2 = .ok c)
    (hcode : returncode ≤ 1) (hanswer : readAnswer answer = .error e) :
    (migrate host (pre ++ (node, .process returncode stdout stderr (some answer)) :: post)
      migrateCorosyncConf).result = .error (.py e) := by
  obtain ⟨ret, hret⟩ := foldlM_hostRet_read hpre 0
  have hremote : remoteCode (pre ++ (node, .process returncode stdout stderr (some answer)) :: post) =
      .error e := by
    rw [remoteCode_append, remoteCode, hret]
    simp [hostRet, show ¬returncode > 1 by omega, hanswer, Except.map, bind, Except.bind]
  have hcheck := check_result host (pre ++ (node, .process returncode stdout stderr (some answer)) :: post)
    ⟨none, false⟩
  simp only [hlocal, hremote, Bool.or_false, Option.isSome_none] at hcheck
  simp [migrate, hcheck, Except.mapError, Except.map, bind, Except.bind]

/-- `beta` answers `null`: reading `pass` off it raises `AttributeError`, which `migrate`
lets out. -/
theorem beta_answers_null :
    localProblems quietHost = .ok [] ∧
      (∀ r ∈ ([] : List (String × RemoteResult)), ∃ c, hostRet r.2 = .ok c) ∧ (0 : Int) ≤ 1 ∧
      readAnswer .null = .error .attributeError ∧
      (migrate quietHost ([] ++ ("beta", .process 0 "null" "" (some .null)) :: []) (pure ())).result =
        .error (.py .attributeError) :=
  have hlocal : localProblems quietHost = .ok [] := rfl
  have hpre : ∀ r ∈ ([] : List (String × RemoteResult)), ∃ c, hostRet r.2 = .ok c :=
    fun _ h => absurd h (List.not_mem_nil _)
  have hanswer : readAnswer .null = .error .attributeError := rfl
  ⟨hlocal, hpre, by decide, hanswer,
    migrate_raises_on_unreadable_answer (pure ()) hlocal hpre (by decide) hanswer⟩

/-- A problem without `descriptions` is iterated as `None`. -/
example : readAnswer (.dict [("pass", .bool false), ("problems", .list [.dict [("title", .str "x")]])]) =
    .error .typeError := by
  decide

end Crmsh

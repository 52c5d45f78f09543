import FluxBroker.Lifecycle

/-!
`module_create`, with the helpers it calls, and `module_stop`.

`module_create` loads the module, allocates the record and fills it in; every failure after
the record exists goes to `cleanup:`, which runs `module_destroy` on the partial record.
`calloc` zeroed the thread id, so that teardown joins no thread and makes no status
callback, and it closes the `dlopen` reference, the socket (and so its endpoint) and the
watcher. A failure of `calloc` itself jumps there before a record holds the `dlopen`
reference: `module_destroy (NULL)` returns at once and the reference is never closed.

The arguments travel as an argz vector: `argz_add` appends each string entry of the JSON
array with its NUL, and the module thread reads them back with `argz_count` and
`argz_extract`. The name, when none is given, is the base name of the path cut at its first
`.so`, wherever that is.
-/

namespace FluxBroker.Create

open FluxBroker.Message FluxBroker.Record FluxBroker.Lifecycle

/-! ### The argument vector -/

inductive Json
  | str (s : String)
  | other
  deriving DecidableEq, Repr

/-- `json_string_value`: `NULL` for a value that is not a string. -/
def jsonStringValue : Json → Option String
  | .str s => some s
  | .other => none

def NUL : Char := Char.ofNat 0

/-- `argz_add (&argz, &len, s)`, modelled from glibc: the C string `s`, up to its first NUL,
and a NUL. -/
def argzAdd (z : List Char) (s : String) : List Char := z ++ s.toList.takeWhile (· ≠ NUL) ++ [NUL]

/-- The loop of `module_create` over `args`, from the argz `z`: `ok` is whether `argz_add`
allocates; the first failure ends the loop. -/
def buildArgz (ok : Bool) : List Json → List Char → Option (List Char)
  | [], z => some z
  | .str s :: js, z => if ok then buildArgz ok js (argzAdd z s) else none
  | .other :: js, z => buildArgz ok js z

/-- The entries of an argz vector as glibc's `argz_count` and `argz_extract` walk it, the
part being read being `cur`: each ends at a NUL (a last one without its NUL is read to the
end). -/
def argzEntries (cur : List Char) : List Char → List (List Char)
  | [] => if cur = [] then [] else [cur]
  | c :: z => if c = NUL then cur :: argzEntries [] z else argzEntries (cur ++ [c]) z

/-- `argz_count`. -/
def argzCount (z : List Char) : ℕ := (argzEntries [] z).length

/-- `argz_extract`: the entries, and the `NULL` that ends `argv`. -/
def argzExtract (z : List Char) : List (Option String) :=
  (argzEntries [] z).map (some ⟨·⟩) ++ [none]

/-- What `module_thread` passes to `mod_main`: `argc` and `argv`. -/
def modMainArgs (z : List Char) : ℕ × List (Option String) := (argzCount z, argzExtract z)

/-! ### The name -/

/-- GNU `basename`, modelled from glibc: what follows the last `/`. -/
def basename (path : String) : String := ⟨(path.toList.reverse.takeWhile (· ≠ '/')).reverse⟩

/-- `strstr (name, ".so")` and the NUL written there: the name up to its first `.so`. -/
def cutAtSo : List Char → List Char
  | [] => []
  | '.' :: 's' :: 'o' :: _ => []
  | c :: r => c :: cutAtSo r

/-- `module_name_from_path`; `alloc` is whether its two `strdup` calls succeed. -/
def moduleNameFromPath (path : String) (alloc : Bool) : Option String :=
  if alloc then some ⟨cutAtSo (basename path).toList⟩ else none

/-! ### `module_create` -/

/-- What the calls of `module_create` that can fail do, and what it reads from outside: the
message of `dlerror`, the legacy `mod_name` symbol (when present and not `NULL`), the errno a
failed `czmq` call leaves, the generated uuid and the broker's user id. `strdupName` covers
`strdup (name)` and the allocations of `module_name_from_path`. -/
structure CreateEnv where
  dlopen : Bool
  dlerror : String
  modMain : Bool
  calloc : Bool
  strdupParent : Bool
  argzAdd : Bool
  strdupPath : Bool
  zlistRmmod : Bool
  zlistSubs : Bool
  strdupName : Bool
  modName : Option String
  zsockNew : Bool
  zsockBind : Bool
  watcher : Bool
  errno : ℤ
  uuid : String
  uid : ℕ

/-- The resources outside the record: a `dlopen` reference, the PAIR socket, its bound
inproc endpoint, and the watcher registered with the reactor. -/
structure Held where
  dso : Bool
  sock : Bool
  bound : Bool
  watcher : Bool
  deriving DecidableEq, Repr

def Held.none : Held := ⟨false, false, false, false⟩

def release (h : Held) : Call → Held
  | .watcherDestroy => { h with watcher := false }
  | .zsockDestroy => { h with sock := false, bound := false }
  | .dlclose => { h with dso := false }
  | _ => h

structure Partial where
  t : ℕ
  held : Held

/-- `module_destroy` on the partial record. With a nonzero thread id it would join the thread
first (`moduleDestroy`); the partial records of `module_create` all have the thread id
`calloc` zeroed, so what runs is the teardown, each call releasing what it frees. -/
def destroyPartial (q : Partial) : List Call × Held :=
  let calls := (if q.t ≠ 0 then [Call.pthreadJoin q.t] else []) ++ teardown
  (calls, calls.foldl release q.held)

/-- What `module_create` ends with: the record, or the errno and the message `errprintf`
writes for a `NULL` return; the resources held; and the calls of its cleanup. -/
structure Created where
  result : Except (ℤ × String) Module
  held : Held
  cleanup : List Call

/-- A `goto cleanup` (or `nomem`) with the record `q`: `module_destroy (q)`. -/
def cleanupWith (q : Partial) (err : ℤ × String) : Created :=
  ⟨.error err, (destroyPartial q).2, (destroyPartial q).1⟩

/-- The name the record gets: a copy of `name`, or, with no name, `module_name_from_path`. -/
def createName (env : CreateEnv) (name : Option String) (path : String) : Option String :=
  match name with
  | some n => if env.strdupName then some n else none
  | none => moduleNameFromPath path env.strdupName

/-- The record `module_create` returns, named `nm`, with the argz `z`: its own uuid, the
owner's credentials, no thread and no status callback yet, the queues empty. -/
def createdRecord (env : CreateEnv) (parentUuid nm path : String) (z : List Char) : Module where
  uuid := env.uuid
  parentUuid := parentUuid
  name := nm
  path := path
  cred := ⟨env.uid, FLUX_ROLE_OWNER ||| FLUX_ROLE_LOCAL⟩
  cred_owner := (by decide : (FLUX_ROLE_OWNER ||| FLUX_ROLE_LOCAL) &&& FLUX_ROLE_OWNER ≠ 0)
  t := 0
  watching := false
  argz := (argzEntries [] z).map (⟨·⟩)
  status := FLUX_MODSTATE_INIT
  errnum := 0
  muted := false
  statusCb := false
  rmmod := []
  insmod := none
  subs := []

/-- The end of `module_create`, once the record holds its name `nm`: the legacy `mod_name`
check, the PAIR socket, its inproc endpoint and the watcher. -/
def createChannel (env : CreateEnv) (parentUuid : String) (name : Option String)
    (path nm : String) (z : List Char) : Created :=
  if env.modName.any (· ≠ nm) then
    cleanupWith ⟨0, ⟨true, false, false, false⟩⟩
      (EINVAL, "mod_name " ++ env.modName.getD "" ++ " != name " ++ name.getD "(null)")
  else if !env.zsockNew then
    cleanupWith ⟨0, ⟨true, false, false, false⟩⟩ (env.errno, "could not create zsock for " ++ nm)
  else if !env.zsockBind then
    cleanupWith ⟨0, ⟨true, true, false, false⟩⟩ (env.errno, "zsock_bind inproc://" ++ env.uuid)
  else if !env.watcher then
    cleanupWith ⟨0, ⟨true, true, true, false⟩⟩ (env.errno, "could not create " ++ nm ++ " zsock watcher")
  else ⟨.ok (createdRecord env parentUuid nm path z), ⟨true, true, true, true⟩, []⟩

/-- `module_create` once `calloc` has given the record, which holds the `dlopen` reference:
every failure from here goes to `nomem` or `cleanup`. -/
def fillRecord (env : CreateEnv) (parentUuid : String) (name : Option String) (path : String)
    (args : List Json) : Created :=
  let nomem := cleanupWith ⟨0, ⟨true, false, false, false⟩⟩ (ENOMEM, "out of memory")
  if !env.strdupParent then nomem
  else match buildArgz env.argzAdd args [] with
  | none => nomem
  | some z =>
    if !env.strdupPath || !env.zlistRmmod || !env.zlistSubs then nomem
    else match createName env name path with
      | none => nomem
      | some nm => createChannel env parentUuid name path nm z

/-- `module_create (h, parent_uuid, name, path, rank, attrs, args, error)`. -/
def moduleCreate (env : CreateEnv) (parentUuid : String) (name : Option String) (path : String)
    (args : List Json) : Created :=
  if !env.dlopen then ⟨.error (ENOENT, env.dlerror), Held.none, []⟩
  else if !env.modMain then
    ⟨.error (EINVAL, "module does not define mod_main()"), release ⟨true, false, false, false⟩ .dlclose,
      [.dlclose]⟩
  else if !env.calloc then ⟨.error (ENOMEM, "out of memory"), ⟨true, false, false, false⟩, []⟩
  else fillRecord env parentUuid name path args

/-! ### `module_stop` -/

/-- `module_stop (p, h)`: the request `flux_rpc` sends on the broker's handle with
`FLUX_RPC_NORESPONSE` and no payload, to `<name>.shutdown`; `asprintf` may fail (`ENOMEM`)
and `flux_rpc` may fail with an errno. -/
def moduleStop (p : Module) (asprintfOk : Bool) (rpcErr : Option ℤ) : Except ℤ Msg :=
  if !asprintfOk then .error ENOMEM
  else match rpcErr with
    | some e => .error e
    | none => .ok {
        type := .request
        topic := some (p.name ++ ".shutdown")
        route := some []
        cred := ⟨FLUX_USERID_UNKNOWN, FLUX_ROLE_NONE⟩
        matchtag := 0
        errnum := 0
        noresponse := true
        payload := .none }

/-! ### The argument vector reaches `mod_main` -/

lemma argzEntries_entry (cur s z : List Char) (hs : NUL ∉ s) :
    argzEntries cur (s ++ NUL :: z) = (cur ++ s) :: argzEntries [] z := by
  induction s generalizing cur with
  | nil => simp [argzEntries]
  | cons c s ih =>
    have hc : c ≠ NUL := fun h => hs (h ▸ List.mem_cons_self _ _)
    simp [argzEntries, hc, ih _ (fun h => hs (List.mem_cons_of_mem _ h))]

lemma buildArgz_true (args : List Json) (z : List Char) : ∃ w, buildArgz true args z = some w := by
  induction args generalizing z with
  | nil => exact ⟨z, rfl⟩
  | cons j js ih => cases j <;> simp only [buildArgz, if_true] <;> exact ih _

lemma buildArgz_entries {ok : Bool} {args : List Json} {z w : List Char}
    (hb : buildArgz ok args z = some w) (hnul : ∀ s, Json.str s ∈ args → NUL ∉ s.toList) :
    ∃ v, w = z ++ v ∧ argzEntries [] v = (args.filterMap jsonStringValue).map String.toList := by
  induction args generalizing z with
  | nil => exact ⟨[], by simpa [buildArgz] using hb.symm, by simp [argzEntries]⟩
  | cons j js ih =>
    have hnul' : ∀ s, Json.str s ∈ js → NUL ∉ s.toList := fun s h => hnul s (.tail _ h)
    cases j with
    | other => simpa [jsonStringValue] using ih hb hnul'
    | str s =>
      have hs : NUL ∉ s.toList := hnul s (.head _)
      cases ok
      · cases hb
      obtain ⟨v, rfl, hv⟩ := ih hb hnul'
      have ht : s.toList.takeWhile (· ≠ NUL) = s.toList :=
        List.takeWhile_eq_self_iff.mpr fun c hc => by simpa using ne_of_mem_of_not_mem hc hs
      exact ⟨s.toList ++ NUL :: v, by rw [argzAdd, ht]; simp, by
        simpa [jsonStringValue, hv] using argzEntries_entry [] _ v hs⟩

/-! ### What `module_create` can end with -/

lemma cleanupWith_fresh (h : Held) (e : ℤ × String) :
    cleanupWith ⟨0, h⟩ e = ⟨.error e, Held.none, teardown⟩ := by
  cases h; rfl

lemma createChannel_cases (env : CreateEnv) (parentUuid : String) (name : Option String)
    (path nm : String) (z : List Char) :
    (∃ e, createChannel env parentUuid name path nm z = ⟨.error e, Held.none, teardown⟩) ∨
    (env.modName.all (· = nm) ∧
      createChannel env parentUuid name path nm z =
        ⟨.ok (createdRecord env parentUuid nm path z), ⟨true, true, true, true⟩, []⟩) := by
  generalize hc : createChannel env parentUuid name path nm z = c
  unfold createChannel at hc
  repeat' split at hc
  iterate 4 exact .inl ⟨_, hc ▸ cleanupWith_fresh _ _⟩
  exact .inr ⟨by cases h : env.modName <;> simp_all, hc.symm⟩

lemma fillRecord_cases (env : CreateEnv) (parentUuid : String) (name : Option String)
    (path : String) (args : List Json) :
    (∃ e, fillRecord env parentUuid name path args = ⟨.error e, Held.none, teardown⟩) ∨
    (∃ z nm, buildArgz env.argzAdd args [] = some z ∧ createName env name path = some nm ∧
      env.modName.all (· = nm) ∧ fillRecord env parentUuid name path args =
        ⟨.ok (createdRecord env parentUuid nm path z), ⟨true, true, true, true⟩, []⟩) := by
  generalize hc : fillRecord env parentUuid name path args = c
  have nomem : c = cleanupWith ⟨0, ⟨true, false, false, false⟩⟩ (ENOMEM, "out of memory") →
      ∃ e, c = ⟨.error e, Held.none, teardown⟩ := fun h => ⟨_, h.trans (cleanupWith_fresh _ _)⟩
  unfold fillRecord at hc
  dsimp only at hc
  split at hc
  · exact .inl (nomem hc.symm)
  split at hc
  · exact .inl (nomem hc.symm)
  rename_i z hz
  split at hc
  · exact .inl (nomem hc.symm)
  split at hc
  · exact .inl (nomem hc.symm)
  rename_i nm hn
  rcases createChannel_cases env parentUuid name path nm z with ⟨e, he⟩ | ⟨hmod, he⟩
  · exact .inl ⟨e, hc ▸ he⟩
  · exact .inr ⟨z, nm, hz, hn, hmod, hc ▸ he⟩

lemma moduleCreate_cases (env : CreateEnv) (parentUuid : String) (name : Option String)
    (path : String) (args : List Json) :
    let c := moduleCreate env parentUuid name path args
    (env.dlopen = false ∧ c = ⟨.error (ENOENT, env.dlerror), Held.none, []⟩) ∨
    (env.dlopen = true ∧ env.modMain = false ∧
      c = ⟨.error (EINVAL, "module does not define mod_main()"), Held.none, [.dlclose]⟩) ∨
    (env.dlopen = true ∧ env.modMain = true ∧ env.calloc = false ∧
      c = ⟨.error (ENOMEM, "out of memory"), ⟨true, false, false, false⟩, []⟩) ∨
    (env.calloc = true ∧ c = fillRecord env parentUuid name path args) := by
  intro c
  cases hd : env.dlopen
  · exact .inl ⟨rfl, by simp [c, moduleCreate, hd]⟩
  cases hm : env.modMain
  · exact .inr (.inl ⟨rfl, rfl, by simp [c, moduleCreate, hd, hm]; rfl⟩)
  cases hk : env.calloc
  · exact .inr (.inr (.inl ⟨rfl, rfl, rfl, by simp [c, moduleCreate, hd, hm, hk]⟩))
  · exact .inr (.inr (.inr ⟨rfl, by simp [c, moduleCreate, hd, hm, hk]⟩))

lemma moduleCreate_ok {env : CreateEnv} {parentUuid : String} {name : Option String}
    {path : String} {args : List Json} {p : Module}
    (h : (moduleCreate env parentUuid name path args).result = .ok p) :
    ∃ z, buildArgz env.argzAdd args [] = some z ∧ createName env name path = some p.name ∧
      env.modName.all (· = p.name) ∧ p = createdRecord env parentUuid p.name path z := by
  rcases moduleCreate_cases env parentUuid name path args with
    ⟨-, hc⟩ | ⟨-, -, hc⟩ | ⟨-, -, -, hc⟩ | ⟨-, hc⟩ <;> rw [hc] at h
  iterate 3 cases h
  rcases fillRecord_cases env parentUuid name path args with ⟨e, he⟩ | ⟨z, nm, hz, hn, hm, he⟩ <;>
    rw [he] at h <;> cases h
  exact ⟨z, hz, hn, hm, rfl⟩

def okEnv : CreateEnv where
  dlopen := true
  dlerror := ""
  modMain := true
  calloc := true
  strdupParent := true
  argzAdd := true
  strdupPath := true
  zlistRmmod := true
  zlistSubs := true
  strdupName := true
  modName := none
  zsockNew := true
  zsockBind := true
  watcher := true
  errno := 0
  uuid := "9c1e"
  uid := 1000

def callocFails : CreateEnv := { okEnv with calloc := false }

/-- **Failures of `module_create`.** Every call that returns `NULL` has run a cleanup that
neither joins a thread nor makes a status callback, and it leaves nothing held except on one
path: when `calloc` fails, the `dlopen` reference stays open. -/
theorem moduleCreate_failure (env : CreateEnv) (parentUuid : String) (name : Option String)
    (path : String) (args : List Json)
    (hf : ∀ p, (moduleCreate env parentUuid name path args).result ≠ .ok p) :
    ((moduleCreate env parentUuid name path args).held = Held.none ↔
      ¬(env.dlopen = true ∧ env.modMain = true ∧ env.calloc = false)) ∧
    (∀ t, Call.pthreadJoin t ∉ (moduleCreate env parentUuid name path args).cleanup) ∧
    ∀ a b, Call.statusCb a b ∉ (moduleCreate env parentUuid name path args).cleanup := by
  rcases moduleCreate_cases env parentUuid name path args with
    ⟨hd, hc⟩ | ⟨hd, hm, hc⟩ | ⟨hd, hm, hk, hc⟩ | ⟨hk, hc⟩ <;> rw [hc] at hf ⊢
  · simp [hd]
  · simp [hm]
  · simp [hd, hm, hk, Held.none]
  · rcases fillRecord_cases env parentUuid name path args with ⟨e, he⟩ | ⟨z, nm, -, -, -, he⟩ <;>
      rw [he] at hf ⊢
    · simp [hk, teardown]
    · exact absurd rfl (hf _)

theorem calloc_failure_cleanup :
    (∀ p, (moduleCreate callocFails "broker" none "./echo.so" []).result ≠ .ok p) ∧
    ((moduleCreate callocFails "broker" none "./echo.so" []).held = Held.none ↔
      ¬(callocFails.dlopen = true ∧ callocFails.modMain = true ∧ callocFails.calloc = false)) ∧
    (∀ t, Call.pthreadJoin t ∉ (moduleCreate callocFails "broker" none "./echo.so" []).cleanup) ∧
    ∀ a b, Call.statusCb a b ∉ (moduleCreate callocFails "broker" none "./echo.so" []).cleanup :=
  have hf : ∀ p, (moduleCreate callocFails "broker" none "./echo.so" []).result ≠ .ok p :=
    fun p h => by cases h
  ⟨hf, moduleCreate_failure callocFails "broker" none "./echo.so" [] hf⟩

/-- **The arguments reach `mod_main` as they were given.** For every JSON array whose strings
hold no NUL, the `argz_add` loop builds an argz from which `argz_count` and `argz_extract`
give `argc`, the number of string entries, and `argv`, those strings in order (other values
skipped, empty strings kept) and the `NULL` that ends it; and every record `module_create`
returns holds that list. -/
theorem argz_round_trip (args : List Json) (hnul : ∀ s, Json.str s ∈ args → NUL ∉ s.toList) :
    let strs := args.filterMap jsonStringValue
    (∃ z, buildArgz true args [] = some z ∧
      modMainArgs z = (strs.length, strs.map some ++ [none])) ∧
    ∀ env parentUuid name path p, (moduleCreate env parentUuid name path args).result = .ok p →
      p.argz = strs := by
  intro strs
  have entries : ∀ {ok z}, buildArgz ok args [] = some z → (argzEntries [] z).map String.mk = strs := by
    intro ok z hb
    obtain ⟨v, rfl, hv⟩ := buildArgz_entries hb hnul
    rw [hv, List.map_map]
    exact List.map_id strs
  obtain ⟨z, hz⟩ := buildArgz_true args []
  refine ⟨⟨z, hz, ?_⟩, fun env parentUuid name path p h => ?_⟩
  · have hs := entries hz
    simp only [modMainArgs, argzCount, argzExtract, ← hs, List.length_map, List.map_map]
    rfl
  · obtain ⟨z, hz, -, -, hp⟩ := moduleCreate_ok h
    rw [hp]
    exact entries hz

theorem flags_reach_main :
    ∃ z, buildArgz true [.str "-v", .other, .str ""] [] = some z ∧
      modMainArgs z = (2, [some "-v", some "", none]) :=
  (argz_round_trip [.str "-v", .other, .str ""] (by
    intro s hs
    simp at hs
    rcases hs with rfl | rfl <;> decide)).1

/-! ### The name of a module loaded by path -/

lemma cutAtSo_eq_self_iff (l : List Char) : cutAtSo l = l ↔ ¬ List.IsInfix ['.', 's', 'o'] l := by
  induction l using cutAtSo.induct with
  | case1 => exact iff_of_true rfl fun h => List.cons_ne_nil _ _ (List.eq_nil_of_infix_nil h)
  | case2 tail => simpa [cutAtSo] using ⟨[], tail, rfl⟩
  | case3 c r h ih =>
    have hp : ¬ List.IsPrefix ['.', 's', 'o'] (c :: r) := by
      rintro ⟨t, ht⟩
      simp only [List.cons_append, List.cons.injEq] at ht
      exact h t ht.1.symm (by simpa using ht.2.symm)
    rw [cutAtSo.eq_3 c r h, List.cons.injEq, ih, List.infix_cons_iff]
    simp [hp]

lemma cutAtSo_append_so (l : List Char) : cutAtSo (l ++ ['.', 's', 'o']) = cutAtSo l := by
  induction l using cutAtSo.induct with
  | case1 => rfl
  | case2 tail => simp [cutAtSo]
  | case3 c r h ih =>
    have h' : ∀ tail, c = '.' → r ++ ['.', 's', 'o'] = 's' :: 'o' :: tail → False := by
      rintro tail rfl ht
      rcases r with _ | ⟨a, _ | ⟨b, r⟩⟩ <;> simp at ht
      exact h r rfl (by rw [ht.1, ht.2.1])
    rw [List.cons_append, cutAtSo.eq_3 c _ h', ih, cutAtSo.eq_3 c r h]

lemma basename_append {dir base : String} (hdir : ∀ c, dir.toList.getLast? = some c → c = '/')
    (hb : '/' ∉ base.toList) : basename (dir ++ base) = base := by
  have hd : dir.toList.reverse.takeWhile (· ≠ '/') = [] := by
    cases h : dir.toList.reverse with
    | nil => rfl
    | cons c r =>
      have : c = '/' := hdir c (by rw [← List.head?_reverse, h]; rfl)
      simp [this]
  have hbase : ∀ c ∈ base.toList.reverse, decide (c ≠ '/') = true := fun c hc =>
    decide_eq_true (ne_of_mem_of_not_mem (List.mem_reverse.mp hc) hb)
  have happ : (dir ++ base).toList = dir.toList ++ base.toList := String.data_append _ _
  rw [basename, happ, List.reverse_append, List.takeWhile_append_of_pos hbase, hd, List.append_nil,
    List.reverse_reverse]
  rfl

/-- **The name from a path.** For a path whose last component is `N.so`, with `N` holding no
`/`, `module_name_from_path` gives `N` cut at its own first `.so`: `N` itself exactly when
`.so` does not occur in `N`. -/
theorem moduleNameFromPath_so {dir N : String} (hdir : ∀ c, dir.toList.getLast? = some c → c = '/')
    (hN : '/' ∉ N.toList) :
    moduleNameFromPath (dir ++ N ++ ".so") true = some ⟨cutAtSo N.toList⟩ ∧
    (moduleNameFromPath (dir ++ N ++ ".so") true = some N ↔
      ¬ List.IsInfix ['.', 's', 'o'] N.toList) := by
  have hso : (N ++ ".so").toList = N.toList ++ ['.', 's', 'o'] := String.data_append _ _
  have hname : moduleNameFromPath (dir ++ N ++ ".so") true = some ⟨cutAtSo N.toList⟩ := by
    rw [String.append_assoc, moduleNameFromPath, if_pos rfl,
      basename_append hdir (by simpa [hso] using hN), hso, cutAtSo_append_so]
  refine ⟨hname, ?_⟩
  rw [hname, Option.some.injEq, ← cutAtSo_eq_self_iff]
  exact ⟨congrArg String.data, congrArg String.mk⟩

theorem echo_so_name :
    moduleNameFromPath ("./" ++ "echo" ++ ".so") true = some ⟨cutAtSo "echo".toList⟩ ∧
    (moduleNameFromPath ("./" ++ "echo" ++ ".so") true = some "echo" ↔
      ¬ List.IsInfix ['.', 's', 'o'] "echo".toList) :=
  moduleNameFromPath_so (fun c h => by cases h; rfl) (by decide)

/-- A module file named `a.sock.so`: the name is cut at the `.so` inside `a.sock`, so the
module is named `a`, a legacy `mod_name` of `a.sock` is refused, and `module_stop` sends
`a.shutdown`. -/
theorem so_infix_cuts_name :
    moduleNameFromPath "./a.sock.so" true = some "a" ∧
    (moduleCreate okEnv "broker" none "./a.sock.so" []).result.map
        (fun p => (p.name, (moduleStop p true none).map Msg.topic)) =
      .ok ("a", .ok (some "a.shutdown")) ∧
    (moduleCreate { okEnv with modName := some "a.sock" } "broker" none "./a.sock.so" []).result.map
        Module.name = .error (EINVAL, "mod_name a.sock != name (null)") :=
  ⟨rfl, rfl, rfl⟩

/-- `calloc` failing: `module_create` returns `NULL` with `ENOMEM`, still holding the `dlopen`
reference, and its cleanup calls nothing. -/
theorem calloc_failure_keeps_dso :
    (moduleCreate callocFails "broker" none "./echo.so" []).result.map Module.name =
      .error (ENOMEM, "out of memory") ∧
    (moduleCreate callocFails "broker" none "./echo.so" []).held = ⟨true, false, false, false⟩ ∧
    (moduleCreate callocFails "broker" none "./echo.so" []).cleanup = [] :=
  ⟨rfl, rfl, rfl⟩

end FluxBroker.Create

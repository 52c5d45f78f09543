import FluxBroker.Servhash

/-!
Which client a request goes to: `servhash_match`.

`servhash_entry_create` gives every entry the match `FLUX_MATCH_REQUEST` with the topic glob
`name.*`, built with `asprintf` from the name as it is, and `servhash_match` returns the
owner of an entry whose match accepts the message. For a name without glob metacharacters
that is the literal law: a request is captured iff its topic is the name, a dot, and
anything. A name with metacharacters is a pattern: `*` captures requests of other services,
and a backslash keeps the entry from capturing its own.

`fnmatch` and `flux_msg_cmp` are not part of the sources; they follow POSIX and the flux
headers.
-/

namespace FluxBroker.ServhashMatch

open FluxBroker.Message FluxBroker.Servhash

/-! ### `fnmatch` -/

/-- An element of a pattern: a character to match as it is (a backslash quotes the next
one), `?`, `*`, a bracket expression with its members as ranges (`neg` for `[!...]`), and the
lone backslash that ends a pattern, which matches nothing. -/
inductive Tok
  | lit (c : Char)
  | any
  | star
  | bracket (neg : Bool) (ranges : List (Char × Char))
  | dangling
  deriving DecidableEq, Repr

def bracketChar : List Char → Option (Char × List Char)
  | '\\' :: c :: r => some (c, r)
  | ['\\'] => none
  | c :: r => some (c, r)
  | [] => none

/-- The members of a bracket expression up to its closing `]`, and the pattern after it;
`none` when the pattern ends first. A `]` first in the list is a member, and `a-z` is a
range unless the `-` is followed by the `]` or by nothing. -/
def bracketItems : ℕ → Bool → List Char → Option (List (Char × Char) × List Char)
  | 0, _, _ => none
  | _ + 1, false, ']' :: r => some ([], r)
  | n + 1, _, p =>
    match bracketChar p with
    | none => none
    | some (lo, '-' :: c :: r) =>
      if c = ']' then (bracketItems n false ('-' :: c :: r)).map fun x => ((lo, lo) :: x.1, x.2)
      else match bracketChar (c :: r) with
        | none => none
        | some (hi, r') => (bracketItems n false r').map fun x => ((lo, hi) :: x.1, x.2)
    | some (lo, r) => (bracketItems n false r).map fun x => ((lo, lo) :: x.1, x.2)

/-- A bracket expression after its `[`: `!` (or `^`, as glibc also takes) negates it. -/
def bracket (n : ℕ) : List Char → Option (Bool × List (Char × Char) × List Char)
  | '!' :: r | '^' :: r => (bracketItems n true r).map fun x => (true, x)
  | r => (bracketItems n true r).map fun x => (false, x)

/-- The elements of a pattern, with `n` steps to read it (its length is enough). An
unterminated `[` is an ordinary character. -/
def parse : ℕ → List Char → List Tok
  | 0, _ => []
  | _ + 1, [] => []
  | n + 1, '\\' :: c :: p => .lit c :: parse n p
  | _ + 1, ['\\'] => [.dangling]
  | n + 1, '?' :: p => .any :: parse n p
  | n + 1, '*' :: p => .star :: parse n p
  | n + 1, '[' :: p =>
    match bracket n p with
    | some (neg, rs, rest) => .bracket neg rs :: parse n rest
    | none => .lit '[' :: parse n p
  | n + 1, c :: p => .lit c :: parse n p

def inRanges (rs : List (Char × Char)) (c : Char) : Bool := rs.any fun r => r.1 ≤ c && c ≤ r.2

/-- Whether the elements match the whole string; `*` matches any part of it, `/` and a
leading `.` included, as no flag is passed. -/
def matchToks : List Tok → List Char → Bool
  | [], s => s.isEmpty
  | .star :: ts, s => s.tails.any (matchToks ts)
  | .lit c :: ts, d :: s => c == d && matchToks ts s
  | .any :: ts, _ :: s => matchToks ts s
  | .bracket neg rs :: ts, d :: s => (inRanges rs d != neg) && matchToks ts s
  | _, _ => false

/-- Modelled from POSIX: `fnmatch (pattern, string, 0) == 0`. Character class, equivalence
class and collating symbol expressions in brackets are read as their characters. -/
def fnmatch (pattern string : String) : Bool :=
  matchToks (parse pattern.length pattern.toList) string.toList

/-! ### Names without metacharacters -/

def Plain (c : Char) : Prop := c ≠ '*' ∧ c ≠ '?' ∧ c ≠ '[' ∧ c ≠ '\\'

instance : DecidablePred Plain := fun _ => inferInstanceAs (Decidable (_ ∧ _ ∧ _ ∧ _))

lemma parse_lit {c : Char} (hc : Plain c) (n : ℕ) (p : List Char) :
    parse (n + 1) (c :: p) = .lit c :: parse n p := by
  obtain ⟨h1, h2, h3, h4⟩ := hc
  exact parse.eq_8 n c p (fun _ _ h _ => h4 h) (fun h _ => h4 h) h2 h1 h3

lemma parse_plain : ∀ {l : List Char}, (∀ c ∈ l, Plain c) → ∀ (rest : List Char) (n : ℕ),
    parse (l.length + n) (l ++ rest) = l.map .lit ++ parse n rest
  | [], _, _, _ => by simp
  | c :: l, hl, rest, n => by
    rw [List.length_cons, Nat.add_right_comm, List.cons_append,
      parse_lit (hl c (List.mem_cons_self _ _)), parse_plain (fun d hd => hl d (List.mem_cons_of_mem _ hd))]
    rfl

lemma matchToks_lits (ts : List Tok) : ∀ (l s : List Char),
    matchToks (l.map .lit ++ ts) s = true ↔ ∃ s', s = l ++ s' ∧ matchToks ts s' = true
  | [], s => by simp only [List.map_nil, List.nil_append, exists_eq_left']
  | c :: l, [] => ⟨nofun, fun ⟨_, h, _⟩ => nomatch h⟩
  | c :: l, d :: s => by
    show (c == d && matchToks (l.map .lit ++ ts) s) = true ↔ _
    rw [Bool.and_eq_true, beq_iff_eq, matchToks_lits ts l s]
    simp only [List.cons_append, List.cons.injEq]
    constructor
    · rintro ⟨rfl, s', rfl, h⟩; exact ⟨s', ⟨rfl, rfl⟩, h⟩
    · rintro ⟨s', ⟨rfl, rfl⟩, h⟩; exact ⟨rfl, s', rfl, h⟩

lemma matchToks_star : ∀ s : List Char, matchToks [.star] s = true
  | [] => rfl
  | _ :: s => by rw [matchToks, List.tails, List.any_cons, ← matchToks, matchToks_star s, Bool.or_true]

/-- The glob of a name without metacharacters accepts exactly the topics that start with the
name and a dot. -/
lemma fnmatch_glob {n : String} (hn : ∀ c ∈ n.toList, Plain c) (t : String) :
    fnmatch (n ++ ".*") t = true ↔ ∃ r : String, t = n ++ "." ++ r := by
  have hp : parse (n ++ ".*").length (n ++ ".*").toList = n.toList.map .lit ++ [.lit '.', .star] := by
    rw [String.length_append, show (n ++ ".*").toList = n.toList ++ ['.', '*'] from String.data_append _ _]
    exact parse_plain hn _ 2
  rw [fnmatch, hp, matchToks_lits]
  constructor
  · rintro ⟨s', hs, h⟩
    cases s' with
    | nil => cases h
    | cons c r =>
      simp only [matchToks, Bool.and_eq_true, beq_iff_eq] at h
      obtain ⟨rfl, -⟩ := h
      exact ⟨⟨r⟩, String.ext (hs.trans (by simp [String.data_append]))⟩
  · rintro ⟨r, rfl⟩
    refine ⟨'.' :: r.toList, by simp [String.data_append], ?_⟩
    show ('.' == '.' && matchToks [.star] r.toList) = true
    simp [matchToks_star]

/-! ### Matching a message -/

/-- `struct flux_match`: the types accepted, the matchtag (`none` for
`FLUX_MATCHTAG_NONE`) and the topic glob. -/
structure FluxMatch where
  typemask : List MsgType
  matchtag : Option ℕ
  topicGlob : Option String

/-- Modelled from the flux headers: `flux_msg_cmp`. The type must be in the mask, the
matchtag equal unless it is `FLUX_MATCHTAG_NONE`, and unless the glob is absent, empty or
`*`, the message must have a topic that `fnmatch` accepts. -/
def msgCmp (m : Msg) (mt : FluxMatch) : Bool :=
  mt.typemask.contains m.type &&
  mt.matchtag.all (· == m.matchtag) &&
  match mt.topicGlob with
  | some g => if g = "" ∨ g = "*" then true else m.topic.any (fnmatch g)
  | none => true

/-- The match `servhash_entry_create` gives an entry: `FLUX_MATCH_REQUEST` with the topic
glob `asprintf ("%s.*", name)`. -/
def entryMatch (e : Entry) : FluxMatch := ⟨[.request], none, some (e.name ++ ".*")⟩

/-- `servhash_match`: the owner of an entry whose match accepts the message, or `ENOENT`.
The code walks the hash in the order `zhashx` keeps; the list's order stands for it. -/
def servhashMatch (s : State) (m : Msg) : Except ℤ String :=
  match s.services.find? (fun e => msgCmp m (entryMatch e)) with
  | some e => .ok e.uuid
  | none => .error ENOENT

/-- The match of an entry accepts a request whose topic its glob accepts, and nothing else:
the glob is never empty nor `*`. -/
lemma msgCmp_entryMatch (e : Entry) (m : Msg) : msgCmp m (entryMatch e) = true ↔
    m.type = .request ∧ ∃ t, m.topic = some t ∧ fnmatch (e.name ++ ".*") t = true := by
  have hne : ¬(e.name ++ ".*" = "" ∨ e.name ++ ".*" = "*") := by
    have h0 : ("" : String).length = 0 := rfl
    have h1 : ("*" : String).length = 1 := rfl
    have h2 : (".*" : String).length = 2 := rfl
    rintro (h | h) <;> have := congrArg String.length h <;> rw [String.length_append] at this <;> omega
  rcases ht : m.topic with _ | t <;> simp [msgCmp, entryMatch, hne, ht]

lemma servhashMatch_ok {s : State} {m : Msg} {u : String} (h : servhashMatch s m = .ok u) :
    ∃ e ∈ s.services, e.uuid = u ∧ msgCmp m (entryMatch e) = true := by
  unfold servhashMatch at h
  split at h
  · rename_i e he
    cases h
    have hm := List.find?_some he
    exact ⟨e, List.mem_of_find?_eq_some he, rfl, hm⟩
  · cases h

lemma servhashMatch_isOk {s : State} {m : Msg} :
    (∃ u, servhashMatch s m = .ok u) ↔ ∃ e ∈ s.services, msgCmp m (entryMatch e) = true := by
  refine ⟨fun ⟨u, h⟩ => ?_, fun ⟨e, he, hm⟩ => ?_⟩
  · obtain ⟨e, he, -, hm⟩ := servhashMatch_ok h
    exact ⟨e, he, hm⟩
  · unfold servhashMatch
    cases hf : s.services.find? (fun e => msgCmp m (entryMatch e)) with
    | some e' => exact ⟨_, rfl⟩
    | none => exact absurd hm (by simpa using List.find?_eq_none.mp hf e he)

/-- **For names without metacharacters, `servhash_match` is the literal law.** On a table
whose entries' names have no `*`, `?`, `[` or backslash, `servhash_match` succeeds on a
message iff it is a request whose topic is the name of some entry, a dot and anything, and
then returns the owner of such an entry. -/
theorem servhash_match_literal {s : State}
    (hp : ∀ e ∈ s.services, ∀ c ∈ e.name.toList, Plain c) (m : Msg) :
    ((∃ u, servhashMatch s m = .ok u) ↔
      m.type = .request ∧ ∃ e ∈ s.services, ∃ r, m.topic = some (e.name ++ "." ++ r)) ∧
    ∀ u, servhashMatch s m = .ok u → ∃ e ∈ s.services, e.uuid = u ∧ ∃ r, m.topic = some (e.name ++ "." ++ r) := by
  have key : ∀ e ∈ s.services, msgCmp m (entryMatch e) = true ↔
      m.type = .request ∧ ∃ r, m.topic = some (e.name ++ "." ++ r) := fun e he => by
    rw [msgCmp_entryMatch]
    refine and_congr_right fun _ => ⟨fun ⟨t, ht, hg⟩ => ?_, fun ⟨r, hr⟩ => ⟨_, hr, ?_⟩⟩
    · obtain ⟨r, rfl⟩ := (fnmatch_glob (hp e he) t).mp hg
      exact ⟨r, ht⟩
    · exact (fnmatch_glob (hp e he) _).mpr ⟨r, rfl⟩
  refine ⟨servhashMatch_isOk.trans ⟨fun ⟨e, he, hm⟩ => ?_, fun ⟨ht, e, he, hr⟩ => ⟨e, he, (key e he).mpr ⟨ht, hr⟩⟩⟩,
    fun u hu => ?_⟩
  · obtain ⟨ht, hr⟩ := (key e he).mp hm
    exact ⟨ht, e, he, hr⟩
  · obtain ⟨e, he, rfl, hm⟩ := servhashMatch_ok hu
    exact ⟨e, he, rfl, ((key e he).mp hm).2⟩

def request (topic : String) : Msg where
  type := .request
  topic := some topic
  route := some []
  cred := ⟨0, 0⟩
  matchtag := 1
  errnum := 0
  noresponse := false
  payload := .none

def jobTable : State := (run (init []) [.add "job" "c1" 1 .none]).getD (init [])

theorem job_request_captured :
    (∀ e ∈ jobTable.services, ∀ c ∈ e.name.toList, Plain c) ∧
      ∃ u, servhashMatch jobTable (request "job.list") = .ok u :=
  have hp : ∀ e ∈ jobTable.services, ∀ c ∈ e.name.toList, Plain c := by decide
  ⟨hp, ((servhash_match_literal hp (request "job.list")).1).mpr
    ⟨rfl, ⟨"job", "c1", 1, none, some 0, none, false⟩, by decide, "list", rfl⟩⟩

theorem glob_name_breaks_literal_match :
    (run (init []) [.add "*" "c1" 1 .none]).map (servhashMatch · (request "job.list")) =
      some (.ok "c1") ∧
    (run (init []) [.add "\\x" "c2" 2 .none]).map (servhashMatch · (request "\\x.ping")) =
      some (.error ENOENT) :=
  ⟨rfl, rfl⟩

end FluxBroker.ServhashMatch

import StudentGrades.Config
import StudentGrades.DecimalText
import StudentGrades.QuotedText

/-!
# The database settings of the start script

The script has a default for each setting. It writes the names of the database and of
its role into statements, as literals where it looks for them and as identifiers where
it creates them; it connects with its client program, which takes a name of a database
that looks like a connection string for one; and it hands the settings to the
application, which puts them into a connection string without quoting.
-/

namespace StudentGrades
open ByteText Config Dao Conninfo QuotedText

def MainA.port (env : Env) : ℤ :=
  match env (utf8 "HTTP_PORT") with
  | none => 8080
  | some portStr => if cstr portStr ≠ [] then toInt (atoi (cstr portStr)) else 8080

namespace Deploy

structure Settings where
  dbHost : Bytes
  dbPort : Bytes
  dbName : Bytes
  dbUser : Bytes
  dbPassword : Bytes
  httpPort : Bytes

/-- A variable that is not set, or empty, is the script's default. -/
def Settings.ofEnv (env : Env) : Settings where
  dbHost := getEnv env (utf8 "DB_HOST") (utf8 "localhost")
  dbPort := getEnv env (utf8 "DB_PORT") (utf8 "5432")
  dbName := getEnv env (utf8 "DB_NAME") (utf8 "student_grades")
  dbUser := getEnv env (utf8 "DB_USER") (utf8 "student_app")
  dbPassword := getEnv env (utf8 "DB_PASSWORD") (utf8 "student_pass")
  httpPort := getEnv env (utf8 "HTTP_PORT") (utf8 "8080")

namespace Settings
variable (s : Settings)

def appEnv (env : Env) : Env := fun name =>
  match [(utf8 "DB_HOST", s.dbHost), (utf8 "DB_PORT", s.dbPort), (utf8 "DB_NAME", s.dbName),
    (utf8 "DB_USER", s.dbUser), (utf8 "DB_PASSWORD", s.dbPassword),
    (utf8 "HTTP_PORT", s.httpPort)].lookup name with
  | some val => some val
  | none => env name

def parameters : List Setting :=
  [(utf8 "host", s.dbHost), (utf8 "port", s.dbPort), (utf8 "dbname", s.dbName),
    (utf8 "user", s.dbUser), (utf8 "password", s.dbPassword)]

end Settings

inductive SetupQuery
  | findDatabase | createDatabase | findUser | createUser | grantAll

namespace SetupQuery

def literal : UInt8 := 39
def identifier : UInt8 := 34

def values (s : Settings) : SetupQuery → List (Slot UInt8 × Bytes)
  | findDatabase => [(⟨utf8 "SELECT 1 FROM pg_database WHERE datname=", literal⟩, s.dbName)]
  | createDatabase => [(⟨utf8 "CREATE DATABASE ", identifier⟩, s.dbName)]
  | findUser => [(⟨utf8 "SELECT 1 FROM pg_roles WHERE rolname=", literal⟩, s.dbUser)]
  | createUser =>
    [(⟨utf8 "CREATE USER ", identifier⟩, s.dbUser), (⟨utf8 " WITH PASSWORD ", literal⟩, s.dbPassword)]
  | grantAll => [(⟨utf8 "GRANT ALL ON DATABASE ", identifier⟩, s.dbName), (⟨utf8 " TO ", identifier⟩, s.dbUser)]

def last : SetupQuery → Bytes
  | findDatabase => []
  | findUser => []
  | _ => utf8 ";"

def text (s : Settings) (q : SetupQuery) : Bytes := write q.last (q.values s)

def Meant (s : Settings) (q : SetupQuery) : Prop :=
  read q.last ((q.values s).map Prod.fst) (q.text s) = some ((q.values s).map Prod.snd)

theorem separated (s : Settings) (q : SetupQuery) : Separated q.last ((q.values s).map Prod.fst) := by
  cases q <;> simp only [values, last, List.map_cons, List.map_nil, Separated, Slot.fixed] <;> decide

theorem meant_iff (s : Settings) (q : SetupQuery) :
    q.Meant s ↔ ∀ p ∈ q.values s, p.1.quote ∉ p.2 := read_write_iff (q.separated s)

theorem all_meant_iff (s : Settings) :
    (∀ q : SetupQuery, q.Meant s) ↔
      (literal ∉ s.dbName ∧ literal ∉ s.dbUser ∧ literal ∉ s.dbPassword) ∧
        identifier ∉ s.dbName ∧ identifier ∉ s.dbUser := by
  simp only [meant_iff]
  constructor
  · intro h
    have hcreate := h .createUser
    simp only [values, List.forall_mem_cons] at hcreate
    exact ⟨⟨h .findDatabase _ (List.mem_singleton_self _), h .findUser _ (List.mem_singleton_self _),
      hcreate.2.1⟩, h .createDatabase _ (List.mem_singleton_self _), hcreate.1⟩
  · rintro ⟨⟨hname, huser, hpassword⟩, hname', huser'⟩ q
    cases q <;> simp [values, *]

end SetupQuery

/-- What the library, the server and the sockets do. The server cuts a name to 63 bytes, and a
number that is no port is listened on, if at all, under another one. -/
structure Outside where
  uri : Bytes → Option (List Setting)
  uri_shorter : ∀ text read, uri text = some read → ∀ s ∈ read, s.2.length < text.length
  known : Bytes → Bool
  known_keywords : ∀ k ∈ keywords, known k
  kept : Bytes → Bytes
  kept_short : ∀ name, name.length ≤ 63 → kept name = name
  kept_length : ∀ name, (kept name).length ≤ 63
  bound : ℤ → ℕ
  bound_port : ∀ p, 0 < p → p < 2 ^ 16 → (bound p : ℤ) = p
  bound_range : ∀ p, 0 < bound p ∧ bound p < 2 ^ 16

def Outside.sample : Outside where
  uri _ := none
  uri_shorter _ _ h := by cases h
  known := libpqKnown
  known_keywords := List.all_eq_true.1 (by decide)
  kept name := name.take 63
  kept_short _ h := List.take_of_length_le h
  kept_length name := by simp
  bound p := if 0 < p ∧ p < 2 ^ 16 then p.toNat else 32768
  bound_port p hlow hhigh := by
    rw [if_pos ⟨hlow, hhigh⟩]
    omega
  bound_range p := by
    split_ifs
    · omega
    · omega

namespace Settings
open SetupQuery

def uriSchemes : List Bytes := [utf8 "postgresql://", utf8 "postgres://"]

def isUri (text : Bytes) : Bool := uriSchemes.any fun scheme => scheme.isPrefixOf text

/-- What `psql_app` asks the library for. The password comes from its environment, and what
it reads in the name of the database, by `uri` or as a connection string, goes over the options. -/
def psqlApp (uri : Bytes → Option (List Setting)) (known : Bytes → Bool) (s : Settings) :
    Option (List Setting) :=
  let options : List Setting := [(utf8 "password", s.dbPassword), (utf8 "host", s.dbHost),
    (utf8 "port", s.dbPort), (utf8 "user", s.dbUser)]
  if isUri s.dbName then (uri s.dbName).map (options ++ ·)
  else if s.dbName.contains equals then (parse known s.dbName).map (options ++ ·)
  else some (options ++ [(utf8 "dbname", s.dbName)])

theorem effective_append_of_none {options : List Setting} {k : Bytes}
    (h : options.reverse.lookup k = none) (read : List Setting) :
    effective (options ++ read) k = effective read k := by
  rw [effective, List.reverse_append, List.lookup_append, h, Option.or_none, effective]

theorem ne_of_shorter {name : Bytes} {options : List Setting} {given : Option (List Setting)}
    (hnone : options.reverse.lookup (utf8 "dbname") = none)
    (hshort : ∀ read, given = some read → ∀ s ∈ read, s.2.length < name.length) {read : List Setting}
    (hread : given.map (options ++ ·) = some read) : effective read (utf8 "dbname") ≠ some name := by
  obtain ⟨own, hgiven, rfl⟩ := Option.map_eq_some_iff.1 hread
  rw [effective_append_of_none hnone]
  intro he
  exact absurd (hshort own hgiven _ (mem_of_effective he)) (lt_irrefl _)

theorem psqlApp_iff {uri : Bytes → Option (List Setting)}
    (huri : ∀ text read, uri text = some read → ∀ s ∈ read, s.2.length < text.length)
    (known : Bytes → Bool) (s : Settings) :
    (∃ read, psqlApp uri known s = some read ∧
        ∀ k ∈ keywords, effective read k = s.parameters.lookup k) ↔
      isUri s.dbName = false ∧ equals ∉ s.dbName := by
  have hname : utf8 "dbname" ∈ keywords := by simp [keywords]
  constructor
  · rintro ⟨read, hread, heff⟩
    have hgiven := heff _ hname
    by_contra hplain
    rw [psqlApp] at hread
    split_ifs at hread with hscheme hequals
    · exact ne_of_shorter rfl (huri s.dbName) hread hgiven
    · exact ne_of_shorter rfl (fun _ => parse_shorter) hread hgiven
    · exact hplain ⟨by simpa using hscheme, by simpa using hequals⟩
  · rintro ⟨hscheme, hequals⟩
    refine ⟨_, by rw [psqlApp, hscheme, if_neg (by simp), if_neg (by simpa using hequals)], ?_⟩
    simp only [keywords, List.forall_mem_cons]
    exact ⟨rfl, rfl, rfl, rfl, rfl, List.forall_mem_nil _⟩

theorem text_ofEnv (env : Env) :
    let s := ofEnv env
    Text s.dbHost ∧ Text s.dbPort ∧ Text s.dbName ∧ Text s.dbUser ∧ Text s.dbPassword :=
  ⟨text_getEnv env _ (by decide), text_getEnv env _ (by decide), text_getEnv env _ (by decide),
    text_getEnv env _ (by decide), text_getEnv env _ (by decide)⟩

theorem loadDbConfig_appEnv (env : Env) :
    loadDbConfig ((ofEnv env).appEnv env) =
      ⟨(ofEnv env).dbHost, toInt (atoi (ofEnv env).dbPort), (ofEnv env).dbName, (ofEnv env).dbUser,
        (ofEnv env).dbPassword⟩ := by
  obtain ⟨hhost, hport, hname, huser, hpassword⟩ := text_ofEnv env
  exact loadDbConfig_of_texts ⟨rfl, hhost⟩ ⟨rfl, hport⟩ ⟨rfl, hname⟩ ⟨rfl, huser⟩ ⟨rfl, hpassword⟩

theorem port_appEnv (env : Env) :
    MainA.port ((ofEnv env).appEnv env) = toInt (atoi (ofEnv env).httpPort) := by
  have hport : Text (ofEnv env).httpPort := text_getEnv env _ (by decide)
  have henv : (ofEnv env).appEnv env (utf8 "HTTP_PORT") = some (ofEnv env).httpPort := rfl
  rw [MainA.port, henv]
  simp [cstr_eq_self hport.2, hport.1]

theorem parameters_keywords (env : Env) : Keywords (ofEnv env).parameters := by
  obtain ⟨hhost, hport, hname, huser, hpassword⟩ := text_ofEnv env
  have hvalues : ∀ p ∈ (ofEnv env).parameters, p.2 ≠ [] := by
    simp [parameters, hhost.1, hport.1, hname.1, huser.1, hpassword.1]
  have hkeys : (ofEnv env).parameters.map Prod.fst = keywords := rfl
  refine ⟨by rw [hkeys]; decide, fun p hp => ⟨?_, hvalues p hp⟩⟩
  have hname := List.all_eq_true.1 keywords_names p.1 (hkeys ▸ List.mem_map_of_mem hp)
  simpa [Name] using hname

theorem portText_iff (text : Bytes) :
    intText (toInt (atoi text)) = text ↔ intText (atoi text) = text ∧ IsInt (atoi text) := by
  constructor
  · intro h
    have hnumber : atoi text = toInt (atoi text) := by
      conv_lhs => rw [← h, atoi_intText]
    exact ⟨hnumber ▸ h, hnumber ▸ isInt_toInt _⟩
  · intro ⟨htext, hint⟩
    rw [toInt_of_isInt hint, htext]

theorem application_iff {known : Bytes → Bool} (hknown : ∀ k ∈ keywords, known k) (env : Env) :
    let s := ofEnv env
    Yields known (cstr (connStr (loadDbConfig (s.appEnv env)))) s.parameters ↔
      (intText (atoi s.dbPort) = s.dbPort ∧ IsInt (atoi s.dbPort)) ∧
        Plain s.dbHost ∧ Plain s.dbName ∧ Plain s.dbUser ∧ Plain s.dbPassword := by
  intro s
  obtain ⟨hhost, hport, hname, huser, hpassword⟩ := text_ofEnv env
  let config : DbConfig := ⟨s.dbHost, toInt (atoi s.dbPort), s.dbName, s.dbUser, s.dbPassword⟩
  have hconfig : loadDbConfig (s.appEnv env) = config := loadDbConfig_appEnv env
  have hsame : s.parameters = settings config ↔ intText (toInt (atoi s.dbPort)) = s.dbPort := by
    simp [settings, parameters, config, eq_comm]
  have hplain : (∀ p ∈ settings config, Plain p.2) ↔
      Plain s.dbHost ∧ Plain s.dbName ∧ Plain s.dbUser ∧ Plain s.dbPassword := by
    simp [settings, intText_plain config.port, config]
  rw [hconfig, cstr_eq_self (@nulFree_connStr config hhost hname huser hpassword), connStr_eq_write,
    ← portText_iff, ← hsame, ← hplain]
  rcases intText_le_text hport.1 (natAbs_toInt_le _) with hshort | ⟨hshort, hsigns⟩
  · have hlong : Transducer.totalWeight cost (settings config) ≤
        Transducer.totalWeight cost s.parameters := by
      simp only [settings, parameters, config, s, Transducer.totalWeight_cons, cost]
      omega
    exact yields_iff_of_longer (@settings_keywords config hhost hname huser hpassword)
      (parameters_keywords env) rfl hlong fun p hp => hknown p.1 (map_fst_settings _ ▸ List.mem_map_of_mem hp)
  · -- a sign that the setting has not is read with the port
    have hlong : Transducer.totalWeight cost (settings config) ≤
        Transducer.totalWeight cost s.parameters + 1 := by
      simp only [settings, parameters, config, s, Transducer.totalWeight_cons, cost]
      omega
    constructor
    · intro h
      have hmarks := marks_of_yields ordinary_minus (parameters_keywords env) hlong h
      simp only [parameters, config, s, Transducer.totalWeight_cons, marks] at hmarks
      omega
    · rintro ⟨h, -⟩
      rw [hsame.1 h] at hsigns
      exact absurd hsigns (lt_irrefl _)

/-- The script's statements, its client program, the application, the names that the server
keeps and the logged address all stand for the settings themselves. -/
structure Agree (o : Outside) (env : Env) : Prop where
  statements : ∀ q : SetupQuery, q.Meant (ofEnv env)
  names : o.kept (ofEnv env).dbName = (ofEnv env).dbName ∧ o.kept (ofEnv env).dbUser = (ofEnv env).dbUser
  client : ∃ read, psqlApp o.uri o.known (ofEnv env) = some read ∧
    ∀ k ∈ keywords, effective read k = (ofEnv env).parameters.lookup k
  application : Yields o.known (cstr (connStr (loadDbConfig ((ofEnv env).appEnv env))))
    (ofEnv env).parameters
  address : natText (o.bound (MainA.port ((ofEnv env).appEnv env))) = (ofEnv env).httpPort

structure Usable (s : Settings) : Prop where
  literals : literal ∉ s.dbName ∧ literal ∉ s.dbUser ∧ literal ∉ s.dbPassword
  identifiers : identifier ∉ s.dbName ∧ identifier ∉ s.dbUser
  lengths : s.dbName.length ≤ 63 ∧ s.dbUser.length ≤ 63
  name : isUri s.dbName = false ∧ equals ∉ s.dbName
  plain : Plain s.dbHost ∧ Plain s.dbName ∧ Plain s.dbUser ∧ Plain s.dbPassword
  dbPort : intText (atoi s.dbPort) = s.dbPort ∧ IsInt (atoi s.dbPort)
  httpPort : intText (atoi s.httpPort) = s.httpPort ∧ 0 < atoi s.httpPort ∧ atoi s.httpPort < 2 ^ 16

theorem kept_iff (o : Outside) (name : Bytes) : o.kept name = name ↔ name.length ≤ 63 := by
  constructor
  · intro h
    exact h ▸ o.kept_length name
  · exact o.kept_short name

theorem address_iff (o : Outside) (env : Env) :
    natText (o.bound (MainA.port ((ofEnv env).appEnv env))) = (ofEnv env).httpPort ↔
      intText (atoi (ofEnv env).httpPort) = (ofEnv env).httpPort ∧
        0 < atoi (ofEnv env).httpPort ∧ atoi (ofEnv env).httpPort < 2 ^ 16 := by
  rw [port_appEnv]
  constructor
  · intro h
    obtain ⟨hlow, hhigh⟩ := o.bound_range (toInt (atoi (ofEnv env).httpPort))
    generalize o.bound (toInt (atoi (ofEnv env).httpPort)) = n at h hlow hhigh
    have hnumber : intText n = natText n := intText_natCast n
    rw [← h, ← hnumber, atoi_intText]
    exact ⟨rfl, by omega, by omega⟩
  · intro ⟨htext, hlow, hhigh⟩
    have hint : IsInt (atoi (ofEnv env).httpPort) := ⟨by omega, by omega⟩
    rw [toInt_of_isInt hint]
    have hbound := o.bound_port _ hlow hhigh
    rw [← intText_natCast, hbound, htext]

/-- The parts of a deployment agree on its settings exactly when these work as they are. -/
theorem settings_agree (o : Outside) (env : Env) : Agree o env ↔ (ofEnv env).Usable := by
  have happlication := application_iff o.known_keywords env
  have hclient := psqlApp_iff o.uri_shorter o.known (ofEnv env)
  constructor
  · intro h
    obtain ⟨hliterals, hidentifiers⟩ := (all_meant_iff _).1 h.statements
    obtain ⟨hnumber, hplain⟩ := happlication.1 h.application
    exact ⟨hliterals, hidentifiers, h.names.imp (kept_iff o _).1 (kept_iff o _).1, hclient.1 h.client,
      hplain, hnumber, (address_iff o env).1 h.address⟩
  · intro h
    exact ⟨(all_meant_iff _).2 ⟨h.literals, h.identifiers⟩,
      h.lengths.imp (kept_iff o _).2 (kept_iff o _).2, hclient.2 h.name,
      happlication.2 ⟨h.dbPort, h.plain⟩, (address_iff o env).2 h.httpPort⟩

theorem usable_default : (ofEnv fun _ => none).Usable where
  literals := by decide
  identifiers := by decide
  lengths := by decide
  name := by decide
  plain := ⟨plain_of_all rfl, plain_of_all rfl, plain_of_all rfl, plain_of_all rfl⟩
  dbPort := by decide
  httpPort := by decide

theorem settings_agree_default : Agree .sample fun _ => none :=
  (settings_agree .sample _).2 usable_default

end Settings

end Deploy
end StudentGrades

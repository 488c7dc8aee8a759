import StudentGrades.Conninfo

/-!
# The configuration and its connection string

`loadDbConfig` takes each field from the environment or its default, and the
connection string writes the five fields one after the other without quoting.
-/

namespace StudentGrades
open ByteText

/-- What `getenv` returns, `none` for a null pointer. -/
abbrev Env := Bytes → Option Bytes

structure DbConfig where
  host : Bytes
  port : ℤ
  dbName : Bytes
  user : Bytes
  password : Bytes
deriving DecidableEq

namespace Config

def getEnv (env : Env) (name defaultVal : Bytes) : Bytes :=
  match env name with
  | none => defaultVal
  | some val => if cstr val ≠ [] then cstr val else defaultVal

/-- `std::atoi` reads a `long` and cuts it to an `int`. -/
def toInt (number : ℤ) : ℤ := (max (-2 ^ 63) (min number (2 ^ 63 - 1))).bmod (2 ^ 32)

def IsInt (number : ℤ) : Prop := -2 ^ 31 ≤ number ∧ number < 2 ^ 31

instance (number : ℤ) : Decidable (IsInt number) := inferInstanceAs (Decidable (_ ∧ _))

theorem toInt_of_isInt {number : ℤ} (h : IsInt number) : toInt number = number := by
  obtain ⟨hlow, hhigh⟩ := h
  rw [toInt, min_eq_left (by omega), max_eq_right (by omega)]
  exact Int.bmod_eq_of_le (by omega) (by omega)

theorem isInt_toInt (number : ℤ) : IsInt (toInt number) := by
  have hlow := @Int.le_bmod (max (-2 ^ 63) (min number (2 ^ 63 - 1))) (2 ^ 32) (by decide)
  have hhigh := @Int.bmod_lt (max (-2 ^ 63) (min number (2 ^ 63 - 1))) (2 ^ 32) (by decide)
  rw [toInt, IsInt]
  omega

theorem natAbs_toInt_le (number : ℤ) : (toInt number).natAbs ≤ number.natAbs := by
  rw [toInt, Int.bmod_def]
  split_ifs
  · omega
  · omega

def getEnvInt (env : Env) (name : Bytes) (defaultVal : ℤ) : ℤ :=
  match env name with
  | none => defaultVal
  | some val => if cstr val ≠ [] then toInt (atoi (cstr val)) else defaultVal

def loadDbConfig (env : Env) : DbConfig where
  host := getEnv env (utf8 "DB_HOST") (utf8 "db")
  port := getEnvInt env (utf8 "DB_PORT") 5432
  dbName := getEnv env (utf8 "DB_NAME") (utf8 "student_grades")
  user := getEnv env (utf8 "DB_USER") (utf8 "student_app")
  password := getEnv env (utf8 "DB_PASSWORD") (utf8 "student_pass")

end Config

namespace Dao

def connStr (config : DbConfig) : Bytes :=
  utf8 "host=" ++ config.host ++
  utf8 " port=" ++ intText config.port ++
  utf8 " dbname=" ++ config.dbName ++
  utf8 " user=" ++ config.user ++
  utf8 " password=" ++ config.password

end Dao

namespace Config
open Dao Conninfo

def Text (b : Bytes) : Prop := b ≠ [] ∧ NulFree b

instance (b : Bytes) : Decidable (Text b) := inferInstanceAs (Decidable (b ≠ [] ∧ NulFree b))

theorem text_getEnv (env : Env) (name : Bytes) {defaultVal : Bytes} (h : Text defaultVal) :
    Text (getEnv env name defaultVal) := by
  rw [getEnv]
  split
  · exact h
  · next val _ =>
    split_ifs with hne
    · exact ⟨hne, cstr_nulFree val⟩
    · exact h

theorem loadDbConfig_text (env : Env) :
    Text (loadDbConfig env).host ∧ Text (loadDbConfig env).dbName ∧
      Text (loadDbConfig env).user ∧ Text (loadDbConfig env).password :=
  ⟨text_getEnv env _ (by decide), text_getEnv env _ (by decide),
    text_getEnv env _ (by decide), text_getEnv env _ (by decide)⟩

def envFor (config : DbConfig) : Env := fun name =>
  [(utf8 "DB_HOST", config.host), (utf8 "DB_PORT", intText config.port),
    (utf8 "DB_NAME", config.dbName), (utf8 "DB_USER", config.user),
    (utf8 "DB_PASSWORD", config.password)].lookup name

theorem getEnv_of_text {env : Env} {name val defaultVal : Bytes} (henv : env name = some val)
    (h : Text val) : getEnv env name defaultVal = val := by
  rw [getEnv, henv]
  simp [cstr_eq_self h.2, h.1]

theorem getEnvInt_of_text {env : Env} {name val : Bytes} {defaultVal : ℤ} (henv : env name = some val)
    (h : Text val) : getEnvInt env name defaultVal = toInt (atoi val) := by
  rw [getEnvInt, henv]
  simp [cstr_eq_self h.2, h.1]

theorem loadDbConfig_of_texts {env : Env} {host port dbName user password : Bytes}
    (hhost : env (utf8 "DB_HOST") = some host ∧ Text host)
    (hport : env (utf8 "DB_PORT") = some port ∧ Text port)
    (hdbName : env (utf8 "DB_NAME") = some dbName ∧ Text dbName)
    (huser : env (utf8 "DB_USER") = some user ∧ Text user)
    (hpassword : env (utf8 "DB_PASSWORD") = some password ∧ Text password) :
    loadDbConfig env = ⟨host, toInt (atoi port), dbName, user, password⟩ := by
  rw [loadDbConfig, getEnv_of_text hhost.1 hhost.2, getEnvInt_of_text hport.1 hport.2,
    getEnv_of_text hdbName.1 hdbName.2, getEnv_of_text huser.1 huser.2,
    getEnv_of_text hpassword.1 hpassword.2]

theorem text_intText (i : ℤ) : Text (intText i) := by
  refine ⟨?_, nulFree_intText i⟩
  rw [intText]
  split_ifs
  · simp
  · exact natText_ne_nil _

theorem isInt_getEnvInt (env : Env) (name : Bytes) {defaultVal : ℤ} (h : IsInt defaultVal) :
    IsInt (getEnvInt env name defaultVal) := by
  rw [getEnvInt]
  split
  · exact h
  · split_ifs
    · exact isInt_toInt _
    · exact h

/-- The environment can give any non-empty texts and any port that is an `int`. -/
theorem exists_loadDbConfig_iff {config : DbConfig} :
    (∃ env, loadDbConfig env = config) ↔
      (Text config.host ∧ Text config.dbName ∧ Text config.user ∧ Text config.password) ∧
        IsInt config.port := by
  constructor
  · rintro ⟨env, rfl⟩
    exact ⟨loadDbConfig_text env, isInt_getEnvInt env _ (by decide)⟩
  · intro ⟨⟨hhost, hdbName, huser, hpassword⟩, hport⟩
    have hconfig := @loadDbConfig_of_texts (envFor config) _ _ _ _ _ ⟨rfl, hhost⟩
      ⟨rfl, text_intText config.port⟩ ⟨rfl, hdbName⟩ ⟨rfl, huser⟩ ⟨rfl, hpassword⟩
    rw [atoi_intText, toInt_of_isInt hport] at hconfig
    exact ⟨envFor config, hconfig⟩

def settings (config : DbConfig) : List Setting :=
  [(utf8 "host", config.host), (utf8 "port", intText config.port), (utf8 "dbname", config.dbName),
    (utf8 "user", config.user), (utf8 "password", config.password)]

def keywords : List Bytes :=
  [utf8 "host", utf8 "port", utf8 "dbname", utf8 "user", utf8 "password"]

theorem map_fst_settings (config : DbConfig) : (settings config).map Prod.fst = keywords := rfl

theorem connStr_eq_write (config : DbConfig) : connStr config = write (settings config) := by
  have hhost : utf8 "host=" = utf8 "host" ++ [equals] := by decide
  have hport : utf8 " port=" = blank :: utf8 "port" ++ [equals] := by decide
  have hdbName : utf8 " dbname=" = blank :: utf8 "dbname" ++ [equals] := by decide
  have huser : utf8 " user=" = blank :: utf8 "user" ++ [equals] := by decide
  have hpassword : utf8 " password=" = blank :: utf8 "password" ++ [equals] := by decide
  rw [connStr, hhost, hport, hdbName, huser, hpassword]
  simp [write, settings, writeSetting, List.intercalate]

theorem plain_of_bytes {v : Bytes}
    (h : ∀ b ∈ v, isSpace b = false ∧ b ≠ backslash ∧ b ≠ quote) : Plain v := by
  refine ⟨fun b hb => ⟨(h b hb).1, (h b hb).2.1⟩, fun hquote => ?_⟩
  exact (h quote (List.mem_of_head? hquote)).2.2 rfl

theorem plain_of_all {v : Bytes}
    (h : (v.all fun b => !isSpace b && b != backslash && b != quote) = true) : Plain v := by
  apply plain_of_bytes
  intro b hb
  simpa [and_assoc] using List.all_eq_true.1 h b hb

theorem intText_plain (i : ℤ) : Plain (intText i) := by
  have hdigit {b : UInt8} (hb : isDigit b) : isSpace b = false ∧ b ≠ backslash ∧ b ≠ quote := by
    refine ⟨not_space_of_digit hb, ?_, ?_⟩
    · intro he
      exact absurd (he ▸ hb) (by decide)
    · intro he
      exact absurd (he ▸ hb) (by decide)
  apply plain_of_bytes
  intro b hb
  rw [intText] at hb
  split_ifs at hb
  · rcases List.mem_cons.1 hb with rfl | hb
    · decide
    · exact hdigit (isDigit_of_mem_natText hb)
  · exact hdigit (isDigit_of_mem_natText hb)

theorem keywords_names : keywords.all (fun k => k != [] && k.all fun b =>
    !isSpace b && b != equals) = true := by decide

theorem settings_keywords {config : DbConfig} (hhost : Text config.host)
    (hdbName : Text config.dbName) (huser : Text config.user) (hpassword : Text config.password) :
    Keywords (settings config) := by
  have hvalues : ∀ s ∈ settings config, s.2 ≠ [] := by
    simp [settings, hhost.1, hdbName.1, huser.1, hpassword.1, (text_intText config.port).1]
  refine ⟨by rw [map_fst_settings]; decide, fun s hs => ⟨?_, hvalues s hs⟩⟩
  have hname := List.all_eq_true.1 keywords_names s.1 (List.mem_map_of_mem (f := Prod.fst) hs)
  simpa [Name] using hname

theorem nulFree_connStr {config : DbConfig} (hhost : Text config.host)
    (hdbName : Text config.dbName) (huser : Text config.user) (hpassword : Text config.password) :
    NulFree (connStr config) := by
  have hport := nulFree_intText config.port
  simp only [connStr, nulFree_append, hhost.2, hdbName.2, huser.2, hpassword.2, hport]
  decide

/-- The string that the library receives yields the configuration exactly when the
four texts need no quoting. -/
theorem connStr_yields_iff {known : Bytes → Bool} (hknown : ∀ k ∈ keywords, known k) (env : Env) :
    Yields known (cstr (connStr (loadDbConfig env))) (settings (loadDbConfig env)) ↔
      Plain (loadDbConfig env).host ∧ Plain (loadDbConfig env).dbName ∧
        Plain (loadDbConfig env).user ∧ Plain (loadDbConfig env).password := by
  obtain ⟨hhost, hdbName, huser, hpassword⟩ := loadDbConfig_text env
  have hport := intText_plain (loadDbConfig env).port
  rw [cstr_eq_self (nulFree_connStr hhost hdbName huser hpassword), connStr_eq_write,
    yields_write_iff (settings_keywords hhost hdbName huser hpassword)
      fun s hs => hknown s.1 (map_fst_settings _ ▸ List.mem_map_of_mem hs)]
  simp [settings, hport]

/-- Keywords of the library's connection parameters. -/
def libpqKeywords : List Bytes :=
  [utf8 "service", utf8 "user", utf8 "password", utf8 "passfile", utf8 "channel_binding",
    utf8 "connect_timeout", utf8 "dbname", utf8 "host", utf8 "hostaddr", utf8 "port",
    utf8 "client_encoding", utf8 "options", utf8 "application_name",
    utf8 "fallback_application_name", utf8 "keepalives", utf8 "sslmode", utf8 "sslcert",
    utf8 "sslkey", utf8 "sslrootcert", utf8 "gssencmode", utf8 "target_session_attrs"]

def libpqKnown (k : Bytes) : Bool := libpqKeywords.contains k

def passwordEnv (password : String) : Env := fun name =>
  if name = utf8 "DB_PASSWORD" then some (utf8 password) else none

theorem connStr_yields_default :
    (∀ k ∈ keywords, libpqKnown k) ∧
      Yields libpqKnown (cstr (connStr (loadDbConfig (passwordEnv "student_pass"))))
        (settings (loadDbConfig (passwordEnv "student_pass"))) := by
  have hknown : ∀ k ∈ keywords, libpqKnown k := List.all_eq_true.1 (by decide)
  refine ⟨hknown, (connStr_yields_iff hknown _).2 ⟨?_, ?_, ?_, ?_⟩⟩
  · exact plain_of_all (by decide)
  · exact plain_of_all (by decide)
  · exact plain_of_all (by decide)
  · exact plain_of_all (by decide)

/-- A password with a blank: its second word has no equals sign, or becomes a
setting that overrides another. -/
theorem connStr_blank_password :
    ¬ Yields libpqKnown (cstr (connStr (loadDbConfig (passwordEnv "pass word"))))
        (settings (loadDbConfig (passwordEnv "pass word"))) ∧
      ¬ Yields libpqKnown (cstr (connStr (loadDbConfig (passwordEnv "x host=other"))))
        (settings (loadDbConfig (passwordEnv "x host=other"))) := by
  have herror : parse libpqKnown (cstr (connStr (loadDbConfig (passwordEnv "pass word")))) = none := by
    decide +kernel
  have hother : (parse libpqKnown (cstr (connStr (loadDbConfig (passwordEnv "x host=other"))))).map
      (fun read => effective read (utf8 "host")) = some (some (utf8 "other")) := by
    decide +kernel
  constructor
  · intro ⟨read, hread, _⟩
    exact absurd (herror.symm.trans hread) (by simp)
  · intro ⟨read, hread, heff⟩
    rw [hread, Option.map_some, heff] at hother
    exact absurd hother (by decide +kernel)

end Config
end StudentGrades

import Libport.Client.Init
import Libport.Common.Numeral

/-!
# The daemon's configuration, and what the library makes of it (`common/configs.cc`,
`server/main.cc`)

The daemon reads its configuration once.  Two of the values have to suit the library: the path of
the socket that it listens on, and the address of the metadata service, which the library hands on
to its process.

* `loadConfig`: the values, or how the daemon ends for want of one.
* `loadConfig_isOk_iff`: what has to be configured.
* `cAtoi_toString`: `atoi` on a number as it is printed.
* **`told_address_iff`**: the address that a process is told is the one that the daemon uses
  exactly when the port is configured as it is printed, or not at all.
* `reached_iff`: the library finds the daemon where it looks for it by default exactly when the
  path is configured so.
-/

namespace Libport

/-! ## The configuration -/

/-- `ConfigItems`. -/
structure ConfigItems where
  myid : String
  myip : String
  metadataUrl : String
  metadataIp : String
  localEp : String
  metadataPort : UInt32
  runAsIaas : Bool
deriving DecidableEq

/-- `METADATA_SERVICE_DEFAULT_PORT`. -/
def metadataServiceDefaultPort : UInt32 := 7777

/-- `DAEMON_SOCKET_DEFAULT_PATH`. -/
def daemonSocketDefaultPath : String := "/var/run/latte/guard.sock"

/-- `strtol` in base 10: white space, a sign and digits; a number that is too large is the largest
there is. -/
def strtol (s : String) : ℤ :=
  let (negative, rest) := splitSign (s.toList.dropWhile isSpace)
  let n : ℤ := Numeral.value 10 (Numeral.digits 10 rest)
  if negative then max (-2 ^ 63) (-n) else min (2 ^ 63 - 1) n

/-- `atoi` of the C library, as it is stored in a `uint32_t`. -/
def cAtoi (s : String) : UInt32 := UInt32.ofInt (strtol s)

/-- `load_config`, for the values of a configuration file.  The log level is read through a pointer
that is not tested. -/
def loadConfig (conf : String → Option String) : Except InitExit ConfigItems :=
  match conf "log" with
  | none => .error .nullPointer
  | some _ =>
    match conf "speaker_id" with
    | none => .error (.runtimeError "myid not configured")
    | some myid =>
      match conf "speaker_ip" with
      | none => .error (.runtimeError "myip not configured")
      | some myip =>
        match conf "run_as_iaas" with
        | none => .error (.runtimeError "run as iaas not configured!\n")
        | some runAsIaas =>
          match conf "metadata_ip" with
          | none => .error (.runtimeError "must provide either metadata_url or metadata_ip")
          | some metadataIp =>
              let portStr := conf "metadata_port"
              .ok
                { myid := myid
                  myip := myip
                  metadataUrl := "http://" ++ metadataIp ++ ":" ++
                    portStr.getD (toString metadataServiceDefaultPort) ++ "/"
                  metadataIp := metadataIp
                  localEp := (conf "daemon_socket").getD daemonSocketDefaultPath
                  metadataPort := (portStr.map cAtoi).getD metadataServiceDefaultPort
                  runAsIaas := runAsIaas = "1" ∨ runAsIaas = "true" }

/-- The configuration that the handler of `GET_METADATA_CONFIG` answers with. -/
def ConfigItems.metadataConfig (items : ConfigItems) : MetadataConfig :=
  { ip := items.metadataIp, port := items.metadataPort }

section
variable {conf : String → Option String} {items : ConfigItems}

/-- **What has to be configured.** -/
lemma loadConfig_isOk_iff : (∃ items, loadConfig conf = .ok items) ↔
    ∀ key ∈ ["log", "speaker_id", "speaker_ip", "run_as_iaas", "metadata_ip"],
      (conf key).isSome := by
  unfold loadConfig
  cases hlog : conf "log" <;> cases hid : conf "speaker_id" <;> cases hip : conf "speaker_ip" <;>
    cases hiaas : conf "run_as_iaas" <;> cases hmeta : conf "metadata_ip" <;>
    simp [hlog, hid, hip, hiaas, hmeta]

lemma loadConfig_eq_ok (h : loadConfig conf = .ok items) :
    items.metadataUrl = "http://" ++ items.metadataIp ++ ":" ++
        (conf "metadata_port").getD (toString metadataServiceDefaultPort) ++ "/" ∧
      items.metadataPort
        = ((conf "metadata_port").map cAtoi).getD metadataServiceDefaultPort ∧
      items.localEp = (conf "daemon_socket").getD daemonSocketDefaultPath := by
  unfold loadConfig at h
  split at h <;> try cases h
  split at h <;> try cases h
  split at h <;> try cases h
  split at h <;> try cases h
  split at h <;> cases h
  exact ⟨rfl, rfl, rfl⟩

/-! ## The port -/

/-- A printed number starts with neither white space nor a sign. -/
lemma splitSign_toDigits (n : ℕ) :
    splitSign ((Nat.toDigits 10 n).dropWhile isSpace) = (false, Nat.toDigits 10 n) := by
  obtain ⟨ds, hdigits, hlt, -⟩ := Numeral.exists_digits (show 1 < 10 by decide) n
  cases ds with
  | nil => exact absurd hdigits Nat.toDigits_ne_nil
  | cons d rest =>
      have hd : d < 10 := hlt d List.mem_cons_self
      have hspace : isSpace (Nat.digitChar d) = false := by
        interval_cases d <;> rfl
      rw [hdigits, List.map_cons, List.dropWhile_cons_of_neg (by simp [hspace])]
      interval_cases d <;> rfl

lemma strtol_toString {n : ℕ} (h : n < 2 ^ 63) : strtol (toString n) = n := by
  have hs : (toString n).toList = Nat.toDigits 10 n := Nat.toList_repr
  have hn : (n : ℤ) ≤ 2 ^ 63 - 1 := by omega
  rw [strtol, hs, splitSign_toDigits]
  simp only [Numeral.value_digits_toDigits (show 1 < 10 by decide) (show 10 ≤ 16 by decide),
    Bool.false_eq_true, if_false]
  exact min_eq_right hn

/-- **`atoi` on a number as it is printed.** -/
lemma cAtoi_toString (n : UInt32) : cAtoi (toString n) = n := by
  have hlt := n.toNat_lt
  have hstrtol : strtol (toString n) = n.toNat :=
    @strtol_toString n.toNat (by omega)
  have hmod : ((n.toNat : ℤ) % 2 ^ 32).toNat = n.toNat := by omega
  rw [cAtoi, hstrtol, UInt32.ofInt, hmod, UInt32.ofNat_toNat]

end

/-! ## The address of the metadata service -/

/-- The address in the form in which the library hands it on. -/
def ConfigItems.toldAddress (items : ConfigItems) : String :=
  items.metadataIp ++ ":" ++ toString items.metadataPort

lemma snprintf_of_room {size : ℕ} {text : String} (h : text.toUTF8.data.toList.length < size) :
    snprintf size text = (text.toUTF8.data.toList ++ [0], text.toUTF8.data.toList.length) := by
  have hsize : size ≠ 0 := by omega
  rw [snprintf, if_neg hsize, List.take_of_length_le (by omega)]

/-- The URL and the address that is told, compared. -/
lemma metadataUrl_eq_iff {conf : String → Option String} {items : ConfigItems}
    (h : loadConfig conf = .ok items) :
    items.metadataUrl = "http://" ++ items.toldAddress ++ "/" ↔
      ∀ port ∈ conf "metadata_port", ∃ n : UInt32, port = toString n := by
  obtain ⟨hurl, hport, -⟩ := loadConfig_eq_ok h
  have hcancel : ∀ text text' : String, "http://" ++ items.metadataIp ++ ":" ++ text ++ "/"
      = "http://" ++ (items.metadataIp ++ ":" ++ text') ++ "/" ↔ text = text' := by
    intro text text'
    simp [← String.toList_inj]
  rw [hurl, ConfigItems.toldAddress, hcancel, hport]
  cases hconf : conf "metadata_port" with
  | none => simp
  | some port =>
      simp only [Option.getD_some, Option.map_some, Option.mem_def, Option.some.injEq,
        forall_eq']
      constructor
      · intro heq
        exact ⟨cAtoi port, heq⟩
      · rintro ⟨n, rfl⟩
        rw [cAtoi_toString]

/-- **The address that a process is told** is, as a text, the one in the URL that the daemon posts
to, exactly when the port is configured as a number is printed, or left to the default. -/
theorem told_address_iff (coding : Coding) {conf : String → Option String} {items : ConfigItems}
    (hconf : loadConfig conf = .ok items) (env : Env)
    (henv : env.metadataConfig = items.metadataConfig) (d : Daemon) (s : Session)
    (failure : Response) (c : LatteClient) (msgId : Int64) (urlSz : ℕ)
    (hroom : items.toldAddress.toUTF8.data.toList.length < urlSz) (hmax : urlSz ≤ urlMaxAllowed) :
    ∃ p text, (LibCall.getMetadataConfigEasy urlSz).run coding (some c) msgId = .ok p ∧
      p.result env d s failure
        = .url 1 (text.toUTF8.data.toList ++ [0]) text.toUTF8.data.toList.length ∧
      (items.metadataUrl = "http://" ++ text ++ "/" ↔
        ∀ port ∈ conf "metadata_port", ∃ n : UInt32, port = toString n) := by
  refine ⟨_, items.toldAddress, if_neg hmax.not_gt, ?_, metadataUrl_eq_iff hconf⟩
  have hwritten := snprintf_of_room hroom
  rw [result_of_reply rfl, henv]
  exact congrArg (fun w => Returned.url 1 w.1 w.2) hwritten

/-- The configuration that comes with the source. -/
def shippedConfig (key : String) : Option String :=
  List.lookup key
    [("speaker_id", "1.1.1.1:1-65535"), ("speaker_ip", "1.1.1.1"), ("run_as_iaas", "false"),
      ("metadata_ip", "10.10.1.39"), ("metadata_port", "19851"),
      ("daemon_socket", "/var/run/attguard.sock"), ("log", "debug")]

/-- What the daemon makes of it. -/
def shippedItems : ConfigItems where
  myid := "1.1.1.1:1-65535"
  myip := "1.1.1.1"
  metadataUrl := "http://10.10.1.39:19851/"
  metadataIp := "10.10.1.39"
  localEp := "/var/run/attguard.sock"
  metadataPort := 19851
  runAsIaas := false

/-- A daemon that is configured so. -/
def shippedEnv : Env :=
  { Env.inOrder fun _ => .failed (.http "") with metadataConfig := shippedItems.metadataConfig }

/-- Its processes are told the right address. -/
theorem told_address_shipped :
    ∃ p text, (LibCall.getMetadataConfigEasy 64).run .short
        (some ⟨"alice", "1.1.1.1"⟩) 0 = .ok p ∧
      p.result shippedEnv {} {} notImplemented
        = .url 1 (text.toUTF8.data.toList ++ [0]) text.toUTF8.data.toList.length ∧
      shippedItems.metadataUrl = "http://" ++ text ++ "/" := by
  obtain ⟨p, text, hp, hresult, hurl⟩ := told_address_iff
    .short (show loadConfig shippedConfig = .ok shippedItems from
      rfl) shippedEnv rfl {} {} notImplemented ⟨"alice", "1.1.1.1"⟩ 0 64 (by decide) (by decide)
  refine ⟨p, text, hp, hresult, hurl.mpr fun port hport => ⟨19851, ?_⟩⟩
  cases hport
  rfl

/-! ## The path of the socket -/

/-- **Where the two meet.**  On a machine with an address on which the daemon listens at its own
path, a library that is given none finds it exactly when the daemon is configured with the path that
the library takes; the daemon's own default is another. -/
lemma reached_iff {conf : String → Option String} {items : ConfigItems}
    (hconf : loadConfig conf = .ok items) {machine : Machine}
    (hlistens : ∀ path, machine.listens path = true ↔ path = items.localEp) {ip : String}
    (hip : getMyip machine = .ok ip) (hne : ip ≠ "") (myid : Option String) (runAsIaas : Bool) :
    (∃ c, liblatteInit machine myid runAsIaas none = .ok (some c)) ↔
      conf "daemon_socket" = some defaultDaemonPath := by
  obtain ⟨-, -, hpath⟩ := loadConfig_eq_ok hconf
  have hreached : machine.listens defaultDaemonPath = true ↔
      conf "daemon_socket" = some defaultDaemonPath := by
    rw [hlistens, hpath]
    cases conf "daemon_socket" with
    | none => exact iff_of_false (by decide) (by simp)
    | some path => simp [eq_comm]
  have hsize : defaultDaemonPath.utf8ByteSize < sunPathSize := by decide
  rw [← hreached]
  simp only [liblatteInit, hip, bind, Except.bind, if_neg hne, redial, Option.getD_none, if_true,
    hsize, true_and]
  by_cases hlisten : machine.listens defaultDaemonPath = true
  · rw [if_pos hlisten]
    exact iff_of_true ⟨_, rfl⟩ hlisten
  · rw [if_neg hlisten]
    refine iff_of_false ?_ hlisten
    rintro ⟨c, hc⟩
    cases hc

end Libport

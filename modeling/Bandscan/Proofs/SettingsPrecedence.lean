import Bandscan.Kernel.FrontendNode
import Bandscan.Proofs.ArgumentReading
import Bandscan.Proofs.Oscillators
/-!
How the configuration of a scan comes about. Arguments come before the configuration file and the
file before the defaults, setting by setting, and only what they come to is checked.
-/

namespace Bandscan

attribute [ext] TuneOptions Config

theorem Inversion.ofCode_eq_ok_iff {n : Nat} {i : Inversion} :
    Inversion.ofCode n = .ok i ↔ i.code = n := by
  constructor
  · intro h
    rw [ofCode.eq_def] at h
    split at h <;> cases h <;> rfl
  · rintro rfl
    cases i <;> rfl

theorem Inversion.exists_ofCode {n : Nat} (hn : n < 3) : ∃ i, Inversion.ofCode n = .ok i := by
  match n with
  | 0 => exact ⟨.off, rfl⟩
  | 1 => exact ⟨.on, rfl⟩
  | 2 => exact ⟨.auto, rfl⟩

theorem Inversion.code_inj {i j : Inversion} : i.code = j.code ↔ i = j := by
  cases i <;> cases j <;> decide

namespace Config

variable {c c₀ : Config} {f : ConfigFile}

structure Valid (c : Config) : Prop where
  satellite : c.satellite < 4
  maxFilters : 1 ≤ c.maxFilters
  tolerance : 1 ≤ c.tolerance
  lnb : c.lnb.InRange

theorem validate_eq_ok_iff : c.validate = .ok () ↔ c.Valid := by
  have hsteps : c.validate = .ok () ↔
      c.satellite < 4 ∧ c.maxFilters ≠ 0 ∧ c.tolerance ≠ 0 ∧ c.lnb.check = .ok () := by
    simp [validate]
  rw [hsteps, Lnb.check_eq_ok_iff]
  constructor
  · rintro ⟨hs, hm, ht, hl⟩
    exact ⟨hs, Nat.pos_of_ne_zero hm, Nat.pos_of_ne_zero ht, hl⟩
  · intro h
    exact ⟨h.satellite, Nat.ne_of_gt h.maxFilters, Nat.ne_of_gt h.tolerance, h.lnb⟩

theorem applyInversion_eq_ok_iff {code : Option Nat} {c' : Config} :
    c.applyInversion code = .ok c' ↔
      ∃ i : Inversion, i.code = code.getD c.inversion.code ∧ c' = { c with inversion := i } := by
  cases code with
  | none =>
    simp only [applyInversion, Except.ok.injEq, Option.getD_none, Inversion.code_inj,
      exists_eq_left]
    exact eq_comm
  | some n =>
    simp only [applyInversion, Option.getD_some, ← Inversion.ofCode_eq_ok_iff]
    cases Inversion.ofCode n with
    | error e => simp
    | ok i => simp [eq_comm]

def defaults : Config := {}

/-- A value that is given comes before one that is on file, and that before the default. -/
def settled {α : Type} (given filed : Option α) (default : α) : α :=
  (given.or filed).getD default

end Config

namespace Arguments

open Config

variable {a : Arguments} {f : ConfigFile} {c c' c₀ : Config}
  {read : String → Option ConfigFile} {file : String → Option String}

structure Settles (a : Arguments) (f : ConfigFile) (c : Config) : Prop where
  adapter : c.adapter = settled a.adapter f.device.adapter defaults.adapter
  frontend : c.frontend = settled a.frontend f.device.frontend defaults.frontend
  demux : c.demux = settled a.demux f.device.demux defaults.demux
  lnb : c.lnb = settled a.lnb f.device.lnb defaults.lnb
  satellite : c.satellite = settled a.satellite f.device.satellite defaults.satellite
  inversion : c.inversion.code =
    settled a.inversion f.device.inversion defaults.inversion.code
  maxFilters : c.maxFilters = settled a.maxFilters f.scan.maxFilters defaults.maxFilters
  tolerance : c.tolerance = settled a.tolerance f.scan.tolerance defaults.tolerance
  select : c.select = settled a.select f.output.select defaults.select
  caSelect : c.caSelect = settled a.caSelect f.output.caSelect defaults.caSelect
  /-- For the current transponder alone, the format on file does not count. -/
  format : c.format =
    a.output.getD (if a.current then .pids else settled none f.output.format defaults.format)
  vdrVersion : c.vdrVersion =
    if a.vdrIds then 3 else settled none f.output.vdrVersion defaults.vdrVersion
  longTimeout : c.longTimeout = (a.longTimeout || f.scan.longTimeout.getD false)
  otherNits : c.otherNits = (a.otherNits || f.scan.otherNits.getD false)
  vdrProvider : c.vdrProvider = (a.vdrProvider || f.output.vdrProvider.getD false)
  channelNumbers : c.channelNumbers = (a.channelNumbers || f.scan.channelNumbers.getD false)
  currentOnly : c.currentOnly = a.current
  tuneAttempts : c.tune.attempts = settled none f.scan.tuneAttempts defaults.tune.attempts
  lockPolls : c.tune.lockPolls = settled none f.scan.lockPolls defaults.tune.lockPolls
  lockDelay : c.tune.lockDelay =
    settled none (f.scan.lockDelay.map (1000 * ·)) defaults.tune.lockDelay
  pollInterval : c.pollInterval =
    settled none (f.scan.pollInterval.map (1000 * ·)) defaults.pollInterval

theorem settles_of_apply (hf : applyFile f {} = (c₀, .ok ())) (hc : a.apply c₀ = .ok c) :
    Settles a f c := by
  rw [applyFile] at hf
  split at hf
  case h_1 => cases hf
  case h_2 c₁ hfiled =>
    obtain ⟨i₁, hi₁, rfl⟩ := applyInversion_eq_ok_iff.1 hfiled
    obtain rfl := (Prod.mk.inj hf).1
    obtain ⟨c₂, hgiven, rfl⟩ := map_eq_ok.1 hc
    obtain ⟨i₂, hi₂, rfl⟩ := applyInversion_eq_ok_iff.1 hgiven
    exact {
      adapter := Option.getD_or.symm
      frontend := Option.getD_or.symm
      demux := Option.getD_or.symm
      lnb := Option.getD_or.symm
      satellite := Option.getD_or.symm
      inversion := hi₂.trans ((congrArg a.inversion.getD hi₁).trans Option.getD_or.symm)
      maxFilters := Option.getD_or.symm
      tolerance := Option.getD_or.symm
      select := Option.getD_or.symm
      caSelect := Option.getD_or.symm
      format := rfl
      vdrVersion := rfl
      longTimeout := Bool.or_comm ..
      otherNits := Bool.or_comm ..
      vdrProvider := Bool.or_comm ..
      channelNumbers := Bool.or_comm ..
      currentOnly := rfl
      tuneAttempts := rfl
      lockPolls := rfl
      lockDelay := rfl
      pollInterval := rfl }

theorem Settles.unique (h : Settles a f c) (h' : Settles a f c') : c = c' := by
  have hinversion : c.inversion = c'.inversion :=
    Inversion.code_inj.1 (h.inversion.trans h'.inversion.symm)
  have htune : c.tune = c'.tune :=
    TuneOptions.ext (h.tuneAttempts.trans h'.tuneAttempts.symm)
      (h.lockPolls.trans h'.lockPolls.symm) (h.lockDelay.trans h'.lockDelay.symm)
  exact Config.ext (h.adapter.trans h'.adapter.symm) (h.frontend.trans h'.frontend.symm)
    (h.demux.trans h'.demux.symm) (h.maxFilters.trans h'.maxFilters.symm)
    (h.tolerance.trans h'.tolerance.symm) (h.longTimeout.trans h'.longTimeout.symm)
    (h.otherNits.trans h'.otherNits.symm) (h.currentOnly.trans h'.currentOnly.symm) hinversion
    (h.lnb.trans h'.lnb.symm) (h.satellite.trans h'.satellite.symm) htune
    (h.pollInterval.trans h'.pollInterval.symm) (h.format.trans h'.format.symm)
    (h.select.trans h'.select.symm) (h.caSelect.trans h'.caSelect.symm)
    (h.vdrProvider.trans h'.vdrProvider.symm) (h.vdrVersion.trans h'.vdrVersion.symm)
    (h.channelNumbers.trans h'.channelNumbers.symm)

theorem exists_apply (ha : a.NamesInversion) (c₀ : Config) :
    ∃ c, a.apply c₀ = .ok c := by
  have hcode : ∃ i : Inversion, i.code = a.inversion.getD c₀.inversion.code := by
    cases hgiven : a.inversion with
    | none => exact ⟨c₀.inversion, rfl⟩
    | some n =>
      obtain ⟨i, hi⟩ := Inversion.exists_ofCode (ha n hgiven)
      exact ⟨i, Inversion.ofCode_eq_ok_iff.1 hi⟩
  obtain ⟨i, hi⟩ := hcode
  exact ⟨_, map_eq_ok.2 ⟨_, applyInversion_eq_ok_iff.2 ⟨i, hi, rfl⟩, rfl⟩⟩

theorem apply_eq_ok_iff (ha : a.NamesInversion) (hf : applyFile f {} = (c₀, .ok ())) :
    a.apply c₀ = .ok c ↔ Settles a f c := by
  constructor
  · exact settles_of_apply hf
  · intro h
    obtain ⟨c', hc'⟩ := exists_apply ha c₀
    rw [hc', h.unique (settles_of_apply hf hc')]

inductive Loads (a : Arguments) (read : String → Option ConfigFile)
    (file : String → Option String) : ConfigFile → Prop
  | unnamed (h : a.config = none) : Loads a read file {}
  | named {path text : String} {f : ConfigFile} (h : a.config = some path)
      (ht : file path = some text) (hf : read text = some f) : Loads a read file f

theorem toConfig_of_loads (h : Loads a read file f) (hf : applyFile f {} = (c₀, .ok ())) :
    a.toConfig (a.config.bind file) read = do
      let c ← (a.apply c₀).mapError .invalid
      c.validate.mapError .invalid
      return c := by
  cases h with
  | unnamed hn =>
    cases hf
    simp only [toConfig, hn]
    rfl
  | named hn ht hp =>
    simp only [toConfig, hn, Option.bind_some, ht, hp, hf]
    rfl

theorem toConfig_of_refused {e : Invalid} (h : Loads a read file f)
    (he : (applyFile f {}).2 = .error e) :
    a.toConfig (a.config.bind file) read = .error (.invalid e) := by
  cases h with
  | unnamed => cases he
  | named hn ht hp =>
    have hf : applyFile f {} = ((applyFile f {}).1, .error e) := Prod.ext rfl he
    simp only [toConfig, hn, Option.bind_some, ht, hp]
    rw [hf]
    rfl

theorem toConfig_of_unreadable {path : String} (h : a.config = some path)
    (ht : file path = none) : a.toConfig (a.config.bind file) read = .error .unreadable := by
  simp only [toConfig, h, Option.bind_some, ht]
  rfl

theorem toConfig_of_malformed {path text : String} (h : a.config = some path)
    (ht : file path = some text) (hp : read text = none) :
    a.toConfig (a.config.bind file) read = .error .malformed := by
  simp only [toConfig, h, Option.bind_some, ht, hp]
  rfl

theorem exists_settled (ha : a.NamesInversion) (hf : (applyFile f {}).2 = .ok ()) :
    ∃ c, Settles a f c := by
  obtain ⟨c, hc⟩ := exists_apply ha (applyFile f {}).1
  exact ⟨c, settles_of_apply (Prod.ext rfl hf) hc⟩

theorem toConfig_of_settled (ha : a.NamesInversion) (h : Loads a read file f)
    (hf : (applyFile f {}).2 = .ok ()) (hc : Settles a f c) :
    a.toConfig (a.config.bind file) read = do
      c.validate.mapError .invalid
      return c := by
  have hfile : applyFile f {} = ((applyFile f {}).1, .ok ()) := Prod.ext rfl hf
  rw [toConfig_of_loads h hfile, (apply_eq_ok_iff ha hfile).2 hc]
  rfl

/-- What keeps a configuration from being settled: the file cannot be read, cannot be parsed or
sets what cannot be taken over, or the settings are out of bounds. -/
inductive Fails (a : Arguments) (read : String → Option ConfigFile)
    (file : String → Option String) : ConfigError → Prop
  | unreadable {path : String} (h : a.config = some path) (ht : file path = none) :
      Fails a read file .unreadable
  | malformed {path text : String} (h : a.config = some path) (ht : file path = some text)
      (hp : read text = none) : Fails a read file .malformed
  | refused {f : ConfigFile} {e : Invalid} (h : Loads a read file f)
      (he : (applyFile f {}).2 = .error e) : Fails a read file (.invalid e)
  | outOfBounds {f : ConfigFile} {c : Config} {e : Invalid} (h : Loads a read file f)
      (hf : (applyFile f {}).2 = .ok ()) (hc : Settles a f c) (he : c.validate = .error e) :
      Fails a read file (.invalid e)

theorem toConfig_of_fails {e : ConfigError} (ha : a.NamesInversion)
    (h : Fails a read file e) : a.toConfig (a.config.bind file) read = .error e := by
  cases h with
  | unreadable h ht => exact toConfig_of_unreadable h ht
  | malformed h ht hp => exact toConfig_of_malformed h ht hp
  | refused h he => exact toConfig_of_refused h he
  | outOfBounds h hf hc he =>
    rw [toConfig_of_settled ha h hf hc, he]
    rfl

theorem loads_or_fails (a : Arguments) (read : String → Option ConfigFile)
    (file : String → Option String) :
    (∃ f, Loads a read file f) ∨ ∃ e, Fails a read file e := by
  cases h : a.config with
  | none => exact .inl ⟨_, .unnamed h⟩
  | some path =>
    cases ht : file path with
    | none => exact .inr ⟨_, .unreadable h ht⟩
    | some text =>
      cases hp : read text with
      | none => exact .inr ⟨_, .malformed h ht hp⟩
      | some f => exact .inl ⟨f, .named h ht hp⟩

theorem settles_or_fails (ha : a.NamesInversion) (read : String → Option ConfigFile)
    (file : String → Option String) :
    (∃ f c, Loads a read file f ∧ (applyFile f {}).2 = .ok () ∧ Settles a f c ∧ c.Valid) ∨
      ∃ e, Fails a read file e := by
  obtain ⟨f, h⟩ | hfails := loads_or_fails a read file
  · cases hf : (applyFile f {}).2 with
    | error e => exact .inr ⟨_, .refused h hf⟩
    | ok u =>
      obtain ⟨c, hc⟩ := exists_settled ha hf
      cases hv : c.validate with
      | error e => exact .inr ⟨_, .outOfBounds h hf hc hv⟩
      | ok u => exact .inl ⟨f, c, h, hf, hc, validate_eq_ok_iff.1 hv⟩
  · exact .inr hfails

theorem toConfig_of_valid (ha : a.NamesInversion) (h : Loads a read file f)
    (hf : (applyFile f {}).2 = .ok ()) (hc : Settles a f c) (hv : c.Valid) :
    a.toConfig (a.config.bind file) read = .ok c := by
  rw [toConfig_of_settled ha h hf hc, validate_eq_ok_iff.2 hv]
  rfl

/-- Whatever the arguments are, and whatever reads the configuration file, there is a configuration
exactly if the file named, if any, can be read and taken over and what arguments, file and defaults
come to, in this order of precedence, keeps the bounds; and it is just this. Else the error is the
first of what fails. -/
theorem toConfig_settles (ha : a.NamesInversion) (read : String → Option ConfigFile)
    (file : String → Option String) :
    (∀ c, a.toConfig (a.config.bind file) read = .ok c ↔
      ∃ f, Loads a read file f ∧ (applyFile f {}).2 = .ok () ∧ Settles a f c ∧ c.Valid) ∧
    (∀ e, a.toConfig (a.config.bind file) read = .error e ↔ Fails a read file e) ∧
    ∀ c : Config, c.validate = .ok () ↔ c.Valid := by
  refine ⟨fun c => ⟨fun hc => ?_, ?_⟩, fun e => ⟨fun he => ?_, toConfig_of_fails ha⟩,
    fun c => validate_eq_ok_iff⟩
  · obtain ⟨f, c', h, hf, hc', hv⟩ | ⟨e, he⟩ := settles_or_fails ha read file
    · rw [toConfig_of_valid ha h hf hc' hv, Except.ok.injEq] at hc
      exact hc ▸ ⟨f, h, hf, hc', hv⟩
    · rw [toConfig_of_fails ha he] at hc
      cases hc
  · rintro ⟨f, h, hf, hc, hv⟩
    exact toConfig_of_valid ha h hf hc hv
  · obtain ⟨f, c, h, hf, hc, hv⟩ | ⟨e', he'⟩ := settles_or_fails ha read file
    · rw [toConfig_of_valid ha h hf hc hv] at he
      cases he
    · rw [toConfig_of_fails ha he', Except.error.injEq] at he
      exact he ▸ he'

/-- A file with a switch position that is out of bounds by itself. -/
def siteText : String :=
  "[device]\nadapter = 2\nsat_number = 9\n[scan]\nother_nits = true\n[output]\nformat = \"vdr\"\n"

def siteFile : ConfigFile where
  device := { adapter := some 2, satellite := some 9 }
  scan := { otherNits := some true }
  output := { format := some .vdr }

def siteFiles (path : String) : Option String := if path = "site.toml" then some siteText else none

def siteArguments : Arguments :=
  { current := true, adapter := some 1, vdrIds := true, inversion := some 0, satellite := some 3,
    config := some "site.toml" }

def siteConfig : Config :=
  { adapter := 1, otherNits := true, currentOnly := true, inversion := .off, satellite := 3,
    format := .pids, vdrVersion := 3 }

theorem toConfig_settles_site :
    Arguments.parse ["-a", "1", "-s3", "-ec", "--inversion=0", "--config", "site.toml"] =
      .ok siteArguments ∧
    ConfigFile.parse siteText = some siteFile ∧ Settles siteArguments siteFile siteConfig ∧
    siteArguments.toConfig (siteArguments.config.bind siteFiles) = .ok siteConfig ∧
    siteArguments.toConfig (siteArguments.config.bind fun _ => none) = .error .unreadable := by
  have hargs : Arguments.parse ["-a", "1", "-s3", "-ec", "--inversion=0", "--config", "site.toml"] =
      .ok siteArguments := by decide +kernel
  have hparse : ConfigFile.parse siteText = some siteFile := by decide +kernel
  have hsettles : Settles siteArguments siteFile siteConfig := settles_of_apply rfl rfl
  have hvalid : siteConfig.Valid := validate_eq_ok_iff.1 rfl
  have hnames : siteArguments.NamesInversion := namesInversion_of_parse hargs
  refine ⟨hargs, hparse, hsettles, ?_, ?_⟩
  · exact ((toConfig_settles hnames ConfigFile.parse siteFiles).1 siteConfig).2
      ⟨siteFile, .named rfl rfl hparse, rfl, hsettles, hvalid⟩
  · exact ((toConfig_settles hnames ConfigFile.parse fun _ => none).2.1 .unreadable).2
      (.unreadable rfl rfl)

end Arguments

end Bandscan

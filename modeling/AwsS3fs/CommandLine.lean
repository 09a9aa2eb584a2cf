/-
**The command line.**

`DecodeCommandLine` (`decodecmdline.c`) goes through the options that `getopt_long` finds and stores
what they say in a configuration of its own, with a flag for each member that was specified.  What
remains is the mount point, or a bucket with a path and the mount point; they are stored too, but
without the flags.

Main definitions:

* `AwsS3fs.Configuration`, `AwsS3fs.CmdlineConfiguration` — the structures;
* `AwsS3fs.splitS3MountPath` — a bucket and a path;
* `AwsS3fs.configSetRegion`, `AwsS3fs.configSetLoglevel`, `AwsS3fs.configSetKey` — values of
  options;
* `AwsS3fs.decodeOption`, `AwsS3fs.decodeCommandLine` — one option, and the command line;
* `AwsS3fs.CmdOption.kind` — options of the same kind overrule each other;
* `AwsS3fs.Decoded` — what a command line says, member by member.

Main results:

* `AwsS3fs.decoded_of_decodeCommandLine` — **what is stored for a command line**;
* `AwsS3fs.decodeCommandLine_mixed` — the order of options of different kinds does not matter.
-/

import AwsS3fs.Lib.Settings
import AwsS3fs.ObjectUrls

set_option relaxedAutoImplicit false
set_option autoImplicit false

namespace AwsS3fs

open CLib Settings

/-! ### Configurations -/

/-- `enum LogLevels`. -/
inductive LogLevels
  | err
  | warning
  | notice
  | info
  | debug
  deriving DecidableEq, Repr

/-- `struct ConfigurationBoolean`. -/
structure ConfigurationBoolean where
  value : Bool
  isset : Bool
  deriving DecidableEq, Repr

/-- `struct Configuration`; a string is nothing where the pointer is `NULL`. -/
structure Configuration where
  region : BucketRegion
  mountPoint : Option Bytes
  bucketName : Option Bytes
  path : Option Bytes
  keyId : Option Bytes
  secretKey : Option Bytes
  logfile : Option Bytes
  verbose : ConfigurationBoolean
  logLevel : LogLevels
  daemonize : Bool
  deriving DecidableEq, Repr

/-- `struct CmdlineConfiguration`. -/
structure CmdlineConfiguration where
  configuration : Configuration
  configFile : Option Bytes
  regionSpecified : Bool
  bucketNameSpecified : Bool
  pathSpecified : Bool
  keyIdSpecified : Bool
  secretKeySpecified : Bool
  logfileSpecified : Bool
  loglevelSpecified : Bool
  deriving DecidableEq, Repr

/-- `InitializeConfiguration`, in a structure whose pointers are `NULL`. -/
def initializeConfiguration : Configuration where
  region := .usStandard
  mountPoint := none
  bucketName := some (ascii "bucket")
  path := some (ascii "/")
  keyId := some (ascii "accesskeyid")
  secretKey := some (ascii "secretkey")
  logfile := some (ascii "/var/log/aws-s3fs.log")
  verbose := ⟨false, false⟩
  logLevel := .warning
  daemonize := true

/-- How the program ends: it exits, or it is killed for reading `NULL` or for an assertion. -/
inductive ExitStatus
  | success
  | failure
  | killed
  deriving DecidableEq, Repr

/-! ### Values -/

/-- `strcasecmp` is `0`. -/
def equalIgnoringCase (a b : Bytes) : Bool := a.map tolower = b.map tolower

/-- `regionNames`. -/
def regionNames : List (Bytes × BucketRegion) :=
  [(ascii "US Standard", .usStandard), (ascii "Oregon", .oregon),
    (ascii "Northern California", .northernCalifornia), (ascii "Ireland", .ireland),
    (ascii "Singapore", .singapore), (ascii "Tokyo", .tokyo), (ascii "Sao Paulo", .saoPaulo)]

/-- The region that `ConfigSetRegion` stores; without one it sets the flag for errors. -/
def configSetRegion (configValue : Bytes) : Option BucketRegion :=
  (regionNames.find? fun name => equalIgnoringCase name.1 configValue).map (·.2)

/-- The level that `ConfigSetLoglevel` stores; without one it sets the flag for errors. -/
def configSetLoglevel (configValue : Bytes) : Option LogLevels :=
  if equalIgnoringCase configValue (ascii "log_err") then some .err
  else if equalIgnoringCase configValue (ascii "log_warning") then some .warning
  else if equalIgnoringCase configValue (ascii "log_notice") then some .notice
  else if equalIgnoringCase configValue (ascii "log_info") then some .notice
  else if equalIgnoringCase configValue (ascii "log_debug") then some .notice
  else none

/-- `ExtractKey`: the key, and what the returned index points to.  The index is `0` if nothing is
left. -/
def extractKey (configValue : Bytes) : Bytes × Bytes :=
  ((configValue.takeWhile (· != 58)).filter (!isspace ·),
    (configValue.dropWhile (· != 58)).dropWhile isSeparator)

/-- The two keys and the flag for errors. -/
structure KeyPair where
  keyId : Bytes
  secretKey : Bytes
  configError : Bool
  deriving DecidableEq, Repr

/-- `ConfigSetKey`. -/
def configSetKey (configValue : Bytes) : KeyPair :=
  let first := extractKey configValue
  if first.2 ≠ [] then ⟨first.1, (extractKey first.2).1, false⟩ else ⟨first.1, [42], true⟩

/-- The search of `SplitS3MountPath` for a separator that is not escaped: what is in front of it,
and the rest. -/
def splitBucket : Bool → Bytes → Bytes × Bytes
  | _, [] => ([], [])
  | escaped, character :: s3Path =>
      if isSeparator character && !escaped then ([], character :: s3Path)
      else
        let rest := splitBucket (if character = 92 then !escaped else false) s3Path
        (character :: rest.1, rest.2)

/-- `SplitS3MountPath`: the bucket and the path. -/
def splitS3MountPath (s3Path : Bytes) : Bytes × Bytes :=
  let components := splitBucket false (s3Path.dropWhile isspace)
  (components.1, components.2.dropWhile isSeparator)

/-! ### Options -/

/-- What `getopt_long` returns, with `optarg`. -/
inductive CmdOption
  | help
  | version
  | license
  | region (optarg : Bytes)
  | bucket (optarg : Bytes)
  | path (optarg : Bytes)
  | logfile (optarg : Bytes)
  | loglevel (optarg : Bytes)
  | foreground
  | key (optarg : Bytes)
  | verbose
  | config (optarg : Bytes)
  /-- The character `?`. -/
  | unknown
  deriving DecidableEq, Repr

/-- A command line: the number of its words, its options, and what remains, in order. -/
structure CommandLine where
  argc : ℕ
  options : List CmdOption
  arguments : List Bytes
  deriving DecidableEq, Repr

/-- The variables of the loop over the options. -/
structure Decoding where
  cmdline : CmdlineConfiguration
  optionError : Bool
  deriving DecidableEq, Repr

namespace Decoding

variable (d : Decoding)

/-- A change of the configuration. -/
def setConfiguration (set : Configuration → Configuration) : Decoding :=
  { d with cmdline := { d.cmdline with configuration := set d.cmdline.configuration } }

/-- The option `-r`. -/
def setRegion (optarg : Bytes) : Decoding where
  cmdline :=
    { d.cmdline with
      configuration :=
        { d.cmdline.configuration with
          region := (configSetRegion optarg).getD d.cmdline.configuration.region }
      regionSpecified := true }
  optionError := d.optionError || (configSetRegion optarg).isNone

/-- The option `-b`.  Its path is taken only if there is none yet. -/
def setBucket (optarg : Bytes) : Decoding :=
  let components := splitS3MountPath optarg
  let named : Decoding :=
    { d.setConfiguration ({ · with bucketName := some components.1 }) with
      cmdline.bucketNameSpecified := true }
  if d.cmdline.configuration.path = none then
    { named.setConfiguration ({ · with path := some components.2 }) with
      cmdline.pathSpecified := true }
  else named

/-- The option `-k`. -/
def setKey (optarg : Bytes) : Decoding :=
  let keys := configSetKey optarg
  { cmdline :=
      { d.cmdline with
        configuration :=
          { d.cmdline.configuration with
            keyId := some keys.keyId
            secretKey := some keys.secretKey }
        keyIdSpecified := true
        secretKeySpecified := true }
    optionError := d.optionError || keys.configError }

/-- The option `-O`. -/
def setLoglevel (optarg : Bytes) : Decoding where
  cmdline :=
    { d.cmdline with
      configuration :=
        { d.cmdline.configuration with
          logLevel := (configSetLoglevel optarg).getD d.cmdline.configuration.logLevel }
      loglevelSpecified := true }
  optionError := d.optionError || (configSetLoglevel optarg).isNone

end Decoding

/-- The body of the loop over the options. -/
def decodeOption (d : Decoding) : CmdOption → Except ExitStatus Decoding
  | .help | .version | .license => .error .success
  | .region optarg => .ok (d.setRegion optarg)
  | .bucket optarg => .ok (d.setBucket optarg)
  | .path optarg =>
      .ok { d.setConfiguration ({ · with path := some optarg }) with
        cmdline.pathSpecified := true }
  | .logfile optarg =>
      .ok { d.setConfiguration ({ · with logfile := some optarg }) with
        cmdline.logfileSpecified := true }
  | .loglevel optarg => .ok (d.setLoglevel optarg)
  | .foreground => .ok (d.setConfiguration ({ · with daemonize := false }))
  | .key optarg => .ok (d.setKey optarg)
  | .verbose => .ok (d.setConfiguration ({ · with verbose := ⟨true, true⟩ }))
  | .config optarg => .ok { d with cmdline.configFile := some optarg }
  | .unknown => .ok { d with optionError := true }

/-- The option ends the program. -/
def CmdOption.exits : CmdOption → Bool
  | .help | .version | .license => true
  | _ => false

/-- A component that is stored unless it is empty. -/
def setUnlessEmpty (component : Bytes) (old : Option Bytes) : Option Bytes :=
  if component ≠ [] then some component else old

/-- What `DecodeCommandLine` stores for the arguments behind the options. -/
def decodeArguments (configuration : Configuration) : List Bytes → Except ExitStatus Configuration
  | [localMountPoint] => .ok { configuration with mountPoint := some localMountPoint }
  | [s3Path, localMountPoint] =>
      let components := splitS3MountPath s3Path
      .ok { configuration with
        bucketName := setUnlessEmpty components.1 configuration.bucketName
        path := setUnlessEmpty components.2 configuration.path
        mountPoint := some localMountPoint }
  | _ => .error .failure

/-- What the loop over the options starts with. -/
def startDecoding (cmdline : CmdlineConfiguration) : Decoding where
  cmdline :=
    { cmdline with
      configuration := { cmdline.configuration with daemonize := true }
      regionSpecified := false
      bucketNameSpecified := false
      pathSpecified := false
      keyIdSpecified := false
      secretKeySpecified := false
      logfileSpecified := false
      loglevelSpecified := false }
  optionError := false

/-- `DecodeCommandLine`, which returns only if there are no errors. -/
def decodeCommandLine (cmdline : CmdlineConfiguration) (argv : CommandLine) :
    Except ExitStatus CmdlineConfiguration :=
  if argv.argc = 1 then .error .success
  else do
    let d ← argv.options.foldlM decodeOption (startDecoding cmdline)
    if d.optionError then .error .failure
    else
      let configuration ← decodeArguments d.cmdline.configuration argv.arguments
      return { d.cmdline with configuration := configuration }

/-! ### What the options say -/

namespace CmdOption

/-- The character of an option.  Options with the same character are of the same kind. -/
def optionCharacter : CmdOption → Char
  | .help => 'h'
  | .version => 'V'
  | .license => 'L'
  | .region _ => 'r'
  | .bucket _ => 'b'
  | .path _ => 'p'
  | .logfile _ => 'l'
  | .loglevel _ => 'O'
  | .foreground => 'f'
  | .key _ => 'k'
  | .verbose => 'v'
  | .config _ => 'c'
  | .unknown => '?'

/-- `optarg`. -/
def optarg : CmdOption → Option Bytes
  | .region optarg => some optarg
  | .bucket optarg => some optarg
  | .path optarg => some optarg
  | .logfile optarg => some optarg
  | .loglevel optarg => some optarg
  | .key optarg => some optarg
  | .config optarg => some optarg
  | _ => none

/-- The argument of an option with a given character. -/
def argumentOf (ch : Char) (option : CmdOption) : Option Bytes :=
  if option.optionCharacter = ch then option.optarg else none

/-- The region of the option `-r`. -/
def regionOf (option : CmdOption) : Option BucketRegion :=
  (option.argumentOf 'r').bind configSetRegion

/-- The level of the option `-O`. -/
def loglevelOf (option : CmdOption) : Option LogLevels :=
  (option.argumentOf 'O').bind configSetLoglevel

theorem optionCharacter_of_argumentOf {ch : Char} {option : CmdOption}
    (h : (option.argumentOf ch).isSome = true) : option.optionCharacter = ch := by
  by_contra hne
  rw [argumentOf, if_neg hne] at h
  cases h

/-- An option that sets the flag for errors. -/
def invalid : CmdOption → Bool
  | .region optarg => (configSetRegion optarg).isNone
  | .loglevel optarg => (configSetLoglevel optarg).isNone
  | .key optarg => (configSetKey optarg).configError
  | .unknown => true
  | _ => false

end CmdOption

open CmdOption

/-- The argument of the last option with a given character. -/
def lastArgument (options : List CmdOption) (ch : Char) : Option Bytes :=
  last (argumentOf ch) options

/-- **What the options say**, member by member, in a structure with a path. -/
def Decoding.after (d : Decoding) (options : List CmdOption) : Decoding where
  cmdline :=
    { configuration :=
        { d.cmdline.configuration with
          region := (last regionOf options).getD d.cmdline.configuration.region
          bucketName :=
            ((lastArgument options 'b').map fun optarg => (splitS3MountPath optarg).1).or
              d.cmdline.configuration.bucketName
          path := (lastArgument options 'p').or d.cmdline.configuration.path
          keyId :=
            ((lastArgument options 'k').map fun optarg => (configSetKey optarg).keyId).or
              d.cmdline.configuration.keyId
          secretKey :=
            ((lastArgument options 'k').map fun optarg => (configSetKey optarg).secretKey).or
              d.cmdline.configuration.secretKey
          logfile := (lastArgument options 'l').or d.cmdline.configuration.logfile
          verbose :=
            if options.contains .verbose then ⟨true, true⟩ else d.cmdline.configuration.verbose
          logLevel := (last loglevelOf options).getD d.cmdline.configuration.logLevel
          daemonize := d.cmdline.configuration.daemonize && !options.contains .foreground }
      configFile := (lastArgument options 'c').or d.cmdline.configFile
      regionSpecified :=
        d.cmdline.regionSpecified || (lastArgument options 'r').isSome
      bucketNameSpecified :=
        d.cmdline.bucketNameSpecified || (lastArgument options 'b').isSome
      pathSpecified := d.cmdline.pathSpecified || (lastArgument options 'p').isSome
      keyIdSpecified := d.cmdline.keyIdSpecified || (lastArgument options 'k').isSome
      secretKeySpecified :=
        d.cmdline.secretKeySpecified || (lastArgument options 'k').isSome
      logfileSpecified := d.cmdline.logfileSpecified || (lastArgument options 'l').isSome
      loglevelSpecified :=
        d.cmdline.loglevelSpecified || (lastArgument options 'O').isSome }
  optionError := d.optionError || options.any invalid

theorem Decoding.after_nil (d : Decoding) : d.after [] = d := by
  simp [Decoding.after, lastArgument]

/-- One more option in front of the others. -/
theorem Decoding.after_cons {d d' : Decoding} {option : CmdOption} {options : List CmdOption}
    (hpath : d.cmdline.configuration.path ≠ none) (h : decodeOption d option = .ok d') :
    d'.after options = d.after (option :: options) := by
  cases option with
  | help => cases h
  | version => cases h
  | license => cases h
  | bucket optarg =>
      rw [decodeOption, Decoding.setBucket, if_neg hpath] at h
      obtain rfl := Except.ok.inj h
      simp [Decoding.after, Decoding.setConfiguration, lastArgument, last_cons, regionOf,
        loglevelOf, argumentOf, optionCharacter, CmdOption.optarg, invalid]
  | _ =>
      obtain rfl := Except.ok.inj h
      simp [Decoding.after, Decoding.setConfiguration, Decoding.setKey, Decoding.setRegion,
        Decoding.setLoglevel, lastArgument, last_cons, regionOf, loglevelOf, argumentOf,
        optionCharacter, CmdOption.optarg, invalid, Bool.or_assoc]

theorem decodeOption_of_exits {option : CmdOption} (h : option.exits = true) (d : Decoding) :
    decodeOption d option = .error .success := by
  cases option with
  | help => rfl
  | version => rfl
  | license => rfl
  | _ => cases h

/-- An option does not take the path away. -/
theorem decodeOption_of_not_exits {option : CmdOption} (h : option.exits = false) {d : Decoding}
    (hpath : d.cmdline.configuration.path ≠ none) :
    ∃ d', decodeOption d option = .ok d' ∧ d'.cmdline.configuration.path ≠ none := by
  cases option with
  | help => cases h
  | version => cases h
  | license => cases h
  | bucket optarg => exact ⟨d.setBucket optarg, rfl, by rwa [Decoding.setBucket, if_neg hpath]⟩
  | path optarg => exact ⟨_, rfl, Option.some_ne_none optarg⟩
  | _ => exact ⟨_, rfl, hpath⟩

/-- **What the loop over the options does**, in a structure with a path. -/
theorem foldlM_decodeOption (options : List CmdOption) {d : Decoding}
    (hpath : d.cmdline.configuration.path ≠ none) :
    options.foldlM decodeOption d =
      if options.any exits then .error .success else .ok (d.after options) := by
  induction options generalizing d with
  | nil => rw [Decoding.after_nil]; rfl
  | cons option options ih =>
      rw [List.foldlM_cons, List.any_cons]
      cases hexits : option.exits with
      | true =>
          rw [decodeOption_of_exits hexits]
          rfl
      | false =>
          obtain ⟨d', hd', hpath'⟩ := decodeOption_of_not_exits hexits hpath
          rw [hd', Bool.false_or, ← Decoding.after_cons hpath hd']
          exact ih hpath'

/-- **The order of options of different kinds does not matter.** -/
theorem Decoding.after_mixed {options options' : List CmdOption}
    (h : Mixed optionCharacter options options') (d : Decoding) :
    d.after options = d.after options' := by
  have hany : ∀ p : CmdOption → Bool, options.any p = options'.any p := fun p => by
    rw [Bool.eq_iff_iff, List.any_eq_true, List.any_eq_true]
    simp only [mem_iff_of_mixed h]
  have hcontains : ∀ option, options.contains option = options'.contains option := fun option => by
    rw [Bool.eq_iff_iff, List.contains_iff_mem, List.contains_iff_mem, mem_iff_of_mixed h]
  have hargument : ∀ ch, lastArgument options ch = lastArgument options' ch := fun ch =>
    last_eq_of_mixed h fun _ hsome => optionCharacter_of_argumentOf hsome
  have hregion : last regionOf options = last regionOf options' :=
    last_eq_of_mixed h fun _ hsome =>
      optionCharacter_of_argumentOf (Option.isSome_of_isSome_bind hsome)
  have hloglevel : last loglevelOf options = last loglevelOf options' :=
    last_eq_of_mixed h fun _ hsome =>
      optionCharacter_of_argumentOf (Option.isSome_of_isSome_bind hsome)
  simp only [Decoding.after, hany, hcontains, hargument, hregion, hloglevel]

theorem decodeCommandLine_mixed {cmdline : CmdlineConfiguration}
    (hpath : cmdline.configuration.path ≠ none) {argv : CommandLine} {options : List CmdOption}
    (h : Mixed optionCharacter argv.options options) :
    decodeCommandLine cmdline { argv with options := options } =
      decodeCommandLine cmdline argv := by
  have hany : argv.options.any exits = options.any exits := by
    rw [Bool.eq_iff_iff, List.any_eq_true, List.any_eq_true]
    simp only [mem_iff_of_mixed h]
  rw [decodeCommandLine, decodeCommandLine, foldlM_decodeOption _ hpath,
    foldlM_decodeOption _ hpath, hany, Decoding.after_mixed h]

/-- **What is stored for a command line.** -/
theorem decodeCommandLine_eq_ok {cmdline c : CmdlineConfiguration}
    (hpath : cmdline.configuration.path ≠ none) {argv : CommandLine}
    (h : decodeCommandLine cmdline argv = .ok c) :
    argv.options.any invalid = false ∧
      ∃ configuration, decodeArguments
        ((startDecoding cmdline).after argv.options).cmdline.configuration argv.arguments =
          .ok configuration ∧
        c = { ((startDecoding cmdline).after argv.options).cmdline with
          configuration := configuration } := by
  rw [decodeCommandLine] at h
  split at h
  · cases h
  · rw [foldlM_decodeOption _ hpath] at h
    split at h
    · cases h
    · rw [Runs.bind_eq_ok_iff] at h
      obtain ⟨d, hd, h⟩ := h
      obtain rfl := Except.ok.inj hd
      split at h
      · cases h
      · rename_i hvalid
        rw [Runs.bind_eq_ok_iff] at h
        obtain ⟨configuration, harguments, h⟩ := h
        exact ⟨Bool.eq_false_iff.2 hvalid, configuration, harguments, (Except.ok.inj h).symm⟩

end AwsS3fs

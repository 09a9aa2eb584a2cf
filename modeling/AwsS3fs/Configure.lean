/-
**Where the configuration comes from.**

`Configure` (`config.c`) starts from default values and lets a configuration file, the variable
`AWS_S3FS_KEY` and the command line overrule them, in this order.  From the command line it takes
the members whose flags are set, and `DecodeCommandLine` sets the flags of the bucket and the path
for options only.  So a bucket or a path in front of the mount point counts only together with an
option, and the path behind the colon of the option `-b` does not count at all.  `VerboseOutput`
(`common.c`) puts its messages together whether they are to be shown or not: the program is killed
if there is no configuration file, whose name would be shown, or if a message does not fit.

Main definitions:

* `AwsS3fs.ConfigFile`, `AwsS3fs.Environment` — what the program finds around it;
* `AwsS3fs.tryConfigFiles`, `AwsS3fs.readConfigFile`, `AwsS3fs.overrideWith`, `AwsS3fs.configure` —
  the functions of `config.c` and `configfile.c`;
* `AwsS3fs.verboseOutput` — the function of `common.c`;
* `AwsS3fs.Precedence` — the sources of the bucket, the path and the keys in the order in which they
  should count;
* `AwsS3fs.Heeded` — what is asked for on the command line is heeded;
* `AwsS3fs.Announced` — there is a configuration file, and the messages fit.

Main results:

* `AwsS3fs.isSome_verboseOutput` — when a message fits;
* `AwsS3fs.overrideWith_eq` — **the configuration, member by member**;
* `AwsS3fs.precedence_iff_heeded` — when the precedence is right.
-/

import AwsS3fs.CommandLine

set_option relaxedAutoImplicit false
set_option autoImplicit false

namespace AwsS3fs

open CLib Settings CmdOption

/-! ### Verbose output -/

/-- `VerboseOutput` from an index of `compile` on, for a format with no conversions but `%s`: the
text that is put together, unless `NULL` is read or an assertion fails. -/
def verboseOutput : ℕ → Bytes → List (Option Bytes) → Option Bytes
  | _, [], _ => some []
  | outIdx, ch :: format, printables =>
      if outIdx < 1023 then
        if ch ≠ 37 then (verboseOutput (outIdx + 1) format printables).map (ch :: ·)
        else
          match format, printables with
          | 115 :: format, some argument :: printables =>
              if argument.length < 1024 ∧ outIdx + argument.length < 1024 then
                (verboseOutput (outIdx + argument.length) format printables).map (argument ++ ·)
              else none
          | _, _ => none
      else none

/-- A message of `Configure`.  It is put together even if it is not shown. -/
def announce (format : Bytes) (printables : List (Option Bytes)) : Except ExitStatus Unit :=
  match verboseOutput 0 format printables with
  | none => .error .killed
  | some _ => .ok ()

/-- A format made of texts with `%s` behind each of them, and a last text. -/
def formatOf (parts : List (Bytes × Bytes)) (last : Bytes) : Bytes :=
  parts.flatMap (fun part => part.1 ++ [37, 115]) ++ last

/-- A message made of the same texts with strings in place of `%s`. -/
def messageOf (parts : List (Bytes × Bytes)) (last : Bytes) : Bytes :=
  parts.flatMap (fun part => part.1 ++ part.2) ++ last

theorem verboseOutput_cons {ch : UInt8} (hch : ch ≠ 37) (outIdx : ℕ) (format : Bytes)
    (printables : List (Option Bytes)) :
    verboseOutput outIdx (ch :: format) printables =
      if outIdx < 1023 then (verboseOutput (outIdx + 1) format printables).map (ch :: ·)
      else none := by
  rw [verboseOutput.eq_def]
  exact if_congr Iff.rfl (if_pos hch) rfl

/-- A text without conversions is copied. -/
theorem isSome_verboseOutput_append {text : Bytes} (htext : 37 ∉ text) (outIdx : ℕ) (format : Bytes)
    (printables : List (Option Bytes)) :
    (verboseOutput outIdx (text ++ format) printables).isSome = true ↔
      (text = [] ∨ outIdx + text.length < 1024) ∧
        (verboseOutput (outIdx + text.length) format printables).isSome = true := by
  induction text generalizing outIdx with
  | nil => simp
  | cons ch text ih =>
      obtain ⟨hch, htext⟩ := not_or.1 (mt List.mem_cons.2 htext)
      rw [List.cons_append, verboseOutput_cons (Ne.symm hch), List.length_cons,
        Nat.add_comm text.length, ← Nat.add_assoc]
      by_cases hfits : outIdx < 1023
      · rw [if_pos hfits, Option.isSome_map, ih htext]
        refine and_congr_left fun _ => ?_
        simp only [reduceCtorEq, false_or]
        refine ⟨fun h => ?_, .inr⟩
        rcases h with rfl | h
        · rw [List.length_nil]
          omega
        · exact h
      · rw [if_neg hfits]
        refine iff_of_false (fun h => by cases h) fun h => ?_
        rcases h.1 with hnil | hlt
        · cases hnil
        · omega

/-- A string is put in place of `%s`. -/
theorem isSome_verboseOutput_string (outIdx : ℕ) (argument format : Bytes)
    (printables : List (Option Bytes)) :
    (verboseOutput outIdx (37 :: 115 :: format) (some argument :: printables)).isSome = true ↔
      (outIdx < 1023 ∧ argument.length < 1024 ∧ outIdx + argument.length < 1024) ∧
        (verboseOutput (outIdx + argument.length) format printables).isSome = true := by
  rw [verboseOutput]
  by_cases hfits : outIdx < 1023
  · by_cases hargument : argument.length < 1024 ∧ outIdx + argument.length < 1024
    · simp [hfits, hargument]
    · simp [hargument]
  · simp [hfits]

/-- **When a message fits**: it ends with a text behind the last string, and has less than 1024
characters. -/
theorem isSome_verboseOutput {parts : List (Bytes × Bytes)} {last : Bytes}
    (hparts : ∀ part ∈ parts, 37 ∉ part.1) (hlast : 37 ∉ last) (hne : last ≠ []) (outIdx : ℕ) :
    (verboseOutput outIdx (formatOf parts last) (parts.map fun part => some part.2)).isSome = true ↔
      outIdx + (messageOf parts last).length < 1024 := by
  induction parts generalizing outIdx with
  | nil =>
      have h := isSome_verboseOutput_append hlast outIdx [] []
      rw [List.append_nil] at h
      simpa [formatOf, messageOf, hne, verboseOutput] using h
  | cons part parts ih =>
      obtain ⟨hpart, hparts⟩ := List.forall_mem_cons.1 hparts
      have hformat : formatOf (part :: parts) last =
          part.1 ++ 37 :: 115 :: formatOf parts last := by
        simp [formatOf]
      have hlength : (messageOf (part :: parts) last).length =
          part.1.length + part.2.length + (messageOf parts last).length := by
        simp [messageOf, Nat.add_assoc]
      have hpos : 0 < (messageOf parts last).length := by
        rw [messageOf, List.length_append]
        exact Nat.add_pos_right _ (List.length_pos_of_ne_nil hne)
      rw [hformat, List.map_cons, isSome_verboseOutput_append hpart, isSome_verboseOutput_string,
        ih hparts, hlength]
      constructor
      · rintro ⟨-, -, h⟩
        omega
      · intro h
        exact ⟨.inr (by omega), ⟨by omega, by omega, by omega⟩, by omega⟩

theorem announce_eq_ok_iff {format : Bytes} {printables : List (Option Bytes)}
    {parts : List (Bytes × Bytes)} {last : Bytes} (hformat : format = formatOf parts last)
    (hprintables : printables = parts.map fun part => some part.2)
    (hparts : ∀ part ∈ parts, 37 ∉ part.1) (hlast : 37 ∉ last) (hne : last ≠ []) :
    announce format printables = .ok () ↔ (messageOf parts last).length < 1024 := by
  rw [← Nat.zero_add (messageOf parts last).length, ← isSome_verboseOutput hparts hlast hne,
    announce, hformat, hprintables]
  cases verboseOutput 0 (formatOf parts last) (parts.map fun part => some part.2) with
  | none => simp
  | some text => simp

/-- `NULL` in place of a string kills the program. -/
theorem announce_none {format text rest : Bytes} (hformat : format = text ++ 37 :: 115 :: rest)
    (htext : 37 ∉ text) :
    announce format [none] ≠ .ok () := by
  have hnull : verboseOutput (0 + text.length) (37 :: 115 :: rest) [none] = none := by
    rw [verboseOutput.eq_def]
    simp
  have hsome := (isSome_verboseOutput_append htext 0 (37 :: 115 :: rest) [none]).not.2 fun h => by
    rw [hnull] at h
    cases h.2
  rw [Option.not_isSome_iff_eq_none] at hsome
  rw [announce, hformat, hsome]
  exact fun h => by cases h

/-! ### Configuration files -/

/-- The settings in a configuration file. -/
structure ConfigFile where
  region : Option Bytes
  bucket : Option Bytes
  path : Option Bytes
  key : Option Bytes
  logfile : Option Bytes
  verbose : Option Bool
  deriving DecidableEq, Repr

/-- What the name of a configuration file leads to. -/
inductive FileContent
  | unreadable
  | malformed
  | settings (file : ConfigFile)
  deriving DecidableEq, Repr

/-- What the program finds around it: the variables `HOME` and `AWS_S3FS_KEY`, the directory
`SYSCONFDIR`, and the files. -/
structure Environment where
  home : Option Bytes
  awsS3fsKey : Option Bytes
  sysconfdir : Bytes
  files : Bytes → FileContent

/-- `TestFileReadable`. -/
def Environment.readable (env : Environment) (filename : Bytes) : Bool :=
  env.files filename ≠ .unreadable

/-- `TryConfigFiles`: the name of the configuration file, if there is one. -/
def tryConfigFiles (env : Environment) : Option Bytes → Except ExitStatus (Option Bytes)
  | some filename => if env.readable filename then .ok (some filename) else .error .failure
  | none =>
      match env.home with
      | none => .ok none
      | some homedir =>
          let configFile := homedir ++ ascii "/.aws-s3fs"
          let defaultConfigFilename := env.sysconfdir ++ ascii "/aws-s3fs.conf"
          if env.readable configFile then .ok (some configFile)
          else if env.readable defaultConfigFilename then .ok (some defaultConfigFilename)
          else .ok none

/-- The members that `ReadConfigFile` sets. -/
def setFromFile (file : ConfigFile) (configuration : Configuration) : Configuration :=
  { configuration with
    region := (file.region.bind configSetRegion).getD configuration.region
    bucketName := file.bucket.or configuration.bucketName
    path := file.path.or configuration.path
    keyId := (file.key.map fun key => (configSetKey key).keyId).or configuration.keyId
    secretKey := (file.key.map fun key => (configSetKey key).secretKey).or configuration.secretKey
    logfile := file.logfile.or configuration.logfile
    verbose := (file.verbose.map fun value => ⟨value, true⟩).getD configuration.verbose }

/-- The flag for errors in `ReadConfigFile`. -/
def ConfigFile.configError (file : ConfigFile) : Bool :=
  file.region.any (fun region => (configSetRegion region).isNone) ||
    file.key.any fun key => (configSetKey key).configError

/-- `ReadConfigFile`, which ends the program if the file has an error. -/
def readConfigFile (env : Environment) (configFilename : Bytes) (configuration : Configuration) :
    Except ExitStatus Configuration :=
  match env.files configFilename with
  | .settings file =>
      if file.configError then .error .failure else .ok (setFromFile file configuration)
  | _ => .error .failure

/-- The configuration after the configuration file, if there is one. -/
def readConfiguration (env : Environment) : Option Bytes → Except ExitStatus Configuration
  | none => .ok initializeConfiguration
  | some configFilename => readConfigFile env configFilename initializeConfiguration

/-! ### `Configure` -/

/-- The keys from the variable `AWS_S3FS_KEY`. -/
def setFromKey (accessKeys : Option Bytes) (configuration : Configuration) :
    Except ExitStatus Configuration :=
  match accessKeys with
  | none => .ok configuration
  | some accessKeys =>
      let keys := configSetKey accessKeys
      if keys.configError then .error .failure
      else .ok { configuration with
        keyId := some keys.keyId
        secretKey := some keys.secretKey }

/-- What `Configure` takes from the command line. -/
def overrideWith (cmdline : CmdlineConfiguration) (configuration : Configuration) : Configuration :=
  let given := cmdline.configuration
  { region := if cmdline.regionSpecified then given.region else configuration.region
    mountPoint := given.mountPoint
    bucketName :=
      if cmdline.bucketNameSpecified then given.bucketName.or configuration.bucketName
      else configuration.bucketName
    path := if cmdline.pathSpecified then given.path.or configuration.path else configuration.path
    keyId :=
      if cmdline.keyIdSpecified then given.keyId.or configuration.keyId else configuration.keyId
    secretKey :=
      if cmdline.secretKeySpecified then given.secretKey.or configuration.secretKey
      else configuration.secretKey
    logfile :=
      if cmdline.logfileSpecified then given.logfile.or configuration.logfile
      else configuration.logfile
    verbose :=
      if given.verbose.isset then ⟨given.verbose.value, true⟩ else configuration.verbose
    logLevel := if cmdline.loglevelSpecified then given.logLevel else configuration.logLevel
    daemonize := given.daemonize }

/-- The structure for the command line at the beginning of `Configure`. -/
def startCmdline : CmdlineConfiguration where
  configuration := initializeConfiguration
  configFile := none
  regionSpecified := false
  bucketNameSpecified := false
  pathSpecified := false
  keyIdSpecified := false
  secretKeySpecified := false
  logfileSpecified := false
  loglevelSpecified := false

/-- The name of a region in `regionNames`. -/
def regionName (region : BucketRegion) : Bytes :=
  ((regionNames.find? (·.2 = region)).map (·.1)).getD []

/-- `ShowStringValue`. -/
def showStringValue (string : Option Bytes) : Bytes := string.getD (ascii "(None)")

/-- `ShowLogLevel`. -/
def showLogLevel : LogLevels → Bytes
  | .err => ascii "LOG_ERR"
  | .warning => ascii "LOG_WARNING"
  | .notice => ascii "LOG_NOTICE"
  | .info => ascii "LOG_INFO"
  | .debug => ascii "LOG_DEBUG"

/-- The message at the end of `Configure`. -/
def announceConfiguration (configuration : Configuration) : Except ExitStatus Unit :=
  announce
    (ascii "Configuration:\n  Region: %s\n  Bucket: %s\n" ++
      (ascii "  Path: %s\n  Log: %s\n  Log level: %s\n" ++ ascii "Mount point:\n  %s\n"))
    [some (regionName configuration.region), some (showStringValue configuration.bucketName),
      some (showStringValue configuration.path), some (showStringValue configuration.logfile),
      some (showLogLevel configuration.logLevel), some (showStringValue configuration.mountPoint)]

/-- `Configure`. -/
def configure (env : Environment) (argv : CommandLine) : Except ExitStatus Configuration := do
  let cmdline ← decodeCommandLine startCmdline argv
  let configFilename ← tryConfigFiles env cmdline.configFile
  let configuration ← readConfiguration env configFilename
  announce (ascii "Read configuration from %s.\n") [configFilename]
  let configuration ← setFromKey env.awsS3fsKey configuration
  if env.awsS3fsKey.isSome then announce (ascii "Keys set from AWS_S3FS_KEY variable.\n") []
  announceConfiguration (overrideWith cmdline configuration)
  return overrideWith cmdline configuration

/-! ### What should count -/

/-- No settings. -/
def ConfigFile.empty : ConfigFile := ⟨none, none, none, none, none, none⟩

/-- The settings in the configuration file that is read for a command line. -/
def Environment.settings (env : Environment) (argv : CommandLine) : ConfigFile :=
  match tryConfigFiles env (lastArgument argv.options 'c') with
  | .ok (some configFilename) =>
      match env.files configFilename with
      | .settings file => file
      | _ => .empty
  | _ => .empty

/-- A component that is not empty. -/
def nonempty (component : Bytes) : Option Bytes := if component = [] then none else some component

namespace CommandLine

variable (argv : CommandLine)

/-- The bucket and the path in front of the mount point. -/
def positional : Option (Bytes × Bytes) :=
  match argv.arguments with
  | [s3Path, _] => some (splitS3MountPath s3Path)
  | _ => none

/-- The bucket and the path of the last option `-b`. -/
def bucketOption : Option (Bytes × Bytes) :=
  (lastArgument argv.options 'b').map splitS3MountPath

/-- A bucket in front of the mount point, unless it is empty. -/
def positionalBucket : Option Bytes := argv.positional.bind fun components => nonempty components.1

/-- A path in front of the mount point, unless it is empty. -/
def positionalPath : Option Bytes := argv.positional.bind fun components => nonempty components.2

/-- The path of the last option `-b`, unless it is empty. -/
def bucketOptionPath : Option Bytes :=
  argv.bucketOption.bind fun components => nonempty components.2

end CommandLine

/-- The bucket and the path without the command line. -/
def fileBucket (file : ConfigFile) : Bytes := file.bucket.getD (ascii "bucket")

def filePath (file : ConfigFile) : Bytes := file.path.getD (ascii "/")

/-- The bucket and the path that should count. -/
def countingBucket (env : Environment) (argv : CommandLine) : Bytes :=
  (argv.positionalBucket.or (argv.bucketOption.map (·.1))).getD (fileBucket (env.settings argv))

def countingPath (env : Environment) (argv : CommandLine) : Bytes :=
  ((argv.positionalPath.or (lastArgument argv.options 'p')).or argv.bucketOptionPath).getD
    (filePath (env.settings argv))

/-- **The sources of the bucket, the path and the keys in the order in which they should count**,
and that the order of options of different kinds does not matter. -/
structure Precedence (env : Environment) (argv : CommandLine) (configuration : Configuration) :
    Prop where
  bucket : configuration.bucketName =
    (argv.positionalBucket.or (argv.bucketOption.map (·.1))).or
      (some (fileBucket (env.settings argv)))
  path : configuration.path =
    ((argv.positionalPath.or (lastArgument argv.options 'p')).or argv.bucketOptionPath).or
      (some (filePath (env.settings argv)))
  keyId : configuration.keyId =
    (((lastArgument argv.options 'k').or env.awsS3fsKey).or (env.settings argv).key).elim
      (some (ascii "accesskeyid")) fun key => some (configSetKey key).keyId
  secretKey : configuration.secretKey =
    (((lastArgument argv.options 'k').or env.awsS3fsKey).or (env.settings argv).key).elim
      (some (ascii "secretkey")) fun key => some (configSetKey key).secretKey
  order : ∀ options, Mixed optionCharacter argv.options options →
    configure env { argv with options := options } = .ok configuration

/-- **What is asked for on the command line is heeded.**  A bucket in front of the mount point needs
an option `-b` beside it, a path there an option `-p`, and so does the path of an option `-b`,
unless they would be taken anyway. -/
structure Heeded (file : ConfigFile) (argv : CommandLine) : Prop where
  bucket : argv.bucketOption.isSome = true ∨
    ∀ bucket, argv.positionalBucket = some bucket → bucket = fileBucket file
  path : (lastArgument argv.options 'p').isSome = true ∨
    ∀ path, argv.positionalPath.or argv.bucketOptionPath = some path → path = filePath file

/-- The message about the configuration that should count. -/
def settingsMessage (env : Environment) (argv : CommandLine) : Bytes :=
  messageOf
    [(ascii "Configuration:\n  Region: ", regionName ((last regionOf argv.options).getD
        (((env.settings argv).region.bind configSetRegion).getD .usStandard))),
      (ascii "\n  Bucket: ", countingBucket env argv), (ascii "\n  Path: ", countingPath env argv),
      (ascii "\n  Log: ", ((lastArgument argv.options 'l').or (env.settings argv).logfile).getD
        (ascii "/var/log/aws-s3fs.log")),
      (ascii "\n  Log level: ", showLogLevel ((last loglevelOf argv.options).getD .warning)),
      (ascii "\nMount point:\n  ", showStringValue argv.arguments.getLast?)]
    (ascii "\n")

/-- **The messages can be put together**: there is a configuration file, whose name can be shown,
and the configuration can. -/
structure Announced (env : Environment) (argv : CommandLine) : Prop where
  file : ∃ configFilename,
    tryConfigFiles env (lastArgument argv.options 'c') = .ok (some configFilename) ∧
      (messageOf [(ascii "Read configuration from ", configFilename)] (ascii ".\n")).length < 1024
  settings : (settingsMessage env argv).length < 1024

/-- The command line, the configuration file and the variable `AWS_S3FS_KEY` are accepted. -/
def Accepted (env : Environment) (argv : CommandLine) : Prop :=
  ∃ cmdline configFilename fromFile fromKey,
    decodeCommandLine startCmdline argv = .ok cmdline ∧
      tryConfigFiles env cmdline.configFile = .ok configFilename ∧
      readConfiguration env configFilename = .ok fromFile ∧
      setFromKey env.awsS3fsKey fromFile = .ok fromKey

/-- **The configuration is the one that should count.** -/
def Configured (env : Environment) (argv : CommandLine) : Prop :=
  ∃ configuration, configure env argv = .ok configuration ∧ Precedence env argv configuration

/-! ### What `Configure` does -/

/-- The configuration after the configuration file. -/
theorem readConfiguration_eq_ok {env : Environment} {argv : CommandLine}
    {configFilename : Option Bytes} {configuration : Configuration}
    (hname : tryConfigFiles env (lastArgument argv.options 'c') = .ok configFilename)
    (h : readConfiguration env configFilename = .ok configuration) :
    configuration = setFromFile (env.settings argv) initializeConfiguration := by
  cases configFilename with
  | none =>
      obtain rfl := Except.ok.inj h
      rw [Environment.settings, hname]
      rfl
  | some configFilename =>
      rw [Environment.settings, hname]
      simp only [readConfiguration, readConfigFile] at h
      cases hfile : env.files configFilename with
      | unreadable =>
          rw [hfile] at h
          cases h
      | malformed =>
          rw [hfile] at h
          cases h
      | settings file =>
          rw [hfile] at h
          simp only at h ⊢
          rw [hfile]
          split at h
          · cases h
          · exact (Except.ok.inj h).symm

/-- The configuration after the variable `AWS_S3FS_KEY`. -/
theorem setFromKey_eq_ok {accessKeys : Option Bytes} {configuration configuration' : Configuration}
    (h : setFromKey accessKeys configuration = .ok configuration') :
    configuration' = { configuration with
      keyId := (accessKeys.map fun key => (configSetKey key).keyId).or configuration.keyId
      secretKey :=
        (accessKeys.map fun key => (configSetKey key).secretKey).or configuration.secretKey } := by
  cases accessKeys with
  | none => exact (Except.ok.inj h).symm
  | some accessKeys =>
      simp only [setFromKey] at h
      split at h
      · cases h
      · exact (Except.ok.inj h).symm

/-- What the arguments behind the options change. -/
theorem decodeArguments_eq_ok {argv : CommandLine} {configuration configuration' : Configuration}
    (h : decodeArguments configuration argv.arguments = .ok configuration') :
    configuration' = { configuration with
      bucketName := argv.positionalBucket.or configuration.bucketName
      path := argv.positionalPath.or configuration.path
      mountPoint := argv.arguments.getLast? } := by
  have hset : ∀ (component : Bytes) (old : Option Bytes),
      setUnlessEmpty component old = (nonempty component).or old := by
    intro component old
    rw [setUnlessEmpty, nonempty]
    by_cases hempty : component = []
    · rw [if_neg (not_not.2 hempty), if_pos hempty, Option.none_or]
    · rw [if_pos hempty, if_neg hempty, Option.some_or]
  rw [CommandLine.positionalBucket, CommandLine.positionalPath, CommandLine.positional]
  match hargs : argv.arguments with
  | [] => rw [hargs] at h; cases h
  | [localMountPoint] =>
      rw [hargs] at h
      obtain rfl := Except.ok.inj h
      rfl
  | [s3Path, localMountPoint] =>
      rw [hargs] at h
      obtain rfl := Except.ok.inj h
      simp only [hset]
      rfl
  | _ :: _ :: _ :: _ => rw [hargs] at h; cases h

/-- If no option has an error, there is a value for each of them. -/
theorem isSome_last_bind {β : Type} {options : List CmdOption} {ch : Char} {f : Bytes → Option β}
    (hvalid : ∀ option ∈ options, ∀ optarg, option.argumentOf ch = some optarg →
      (f optarg).isSome = true) :
    (last (fun option => (option.argumentOf ch).bind f) options).isSome =
      (lastArgument options ch).isSome := by
  rw [Bool.eq_iff_iff, lastArgument, isSome_last_iff, isSome_last_iff]
  constructor
  · rintro ⟨option, hoption, hsome⟩
    exact ⟨option, hoption, Option.isSome_of_isSome_bind hsome⟩
  · rintro ⟨option, hoption, hsome⟩
    obtain ⟨optarg, hoptarg⟩ := Option.isSome_iff_exists.1 hsome
    refine ⟨option, hoption, ?_⟩
    rw [hoptarg, Option.bind_some]
    exact hvalid option hoption optarg hoptarg

theorem startCmdline_path : startCmdline.configuration.path ≠ none := Option.some_ne_none _

section Steps

variable {env : Environment} {argv : CommandLine} {cmdline : CmdlineConfiguration}
  {configFilename : Option Bytes} {fromFile fromKey : Configuration}

theorem configFile_eq (hcmdline : decodeCommandLine startCmdline argv = .ok cmdline) :
    cmdline.configFile = lastArgument argv.options 'c' := by
  obtain ⟨-, given, -, rfl⟩ := decodeCommandLine_eq_ok startCmdline_path hcmdline
  exact Option.or_none

/-- **The configuration, member by member.** -/
theorem overrideWith_eq (hcmdline : decodeCommandLine startCmdline argv = .ok cmdline)
    (hname : tryConfigFiles env cmdline.configFile = .ok configFilename)
    (hfile : readConfiguration env configFilename = .ok fromFile)
    (hkey : setFromKey env.awsS3fsKey fromFile = .ok fromKey) :
    overrideWith cmdline fromKey =
      { region := (last regionOf argv.options).getD
          (((env.settings argv).region.bind configSetRegion).getD .usStandard)
        mountPoint := argv.arguments.getLast?
        bucketName := (if (lastArgument argv.options 'b').isSome then
          argv.positionalBucket.or (argv.bucketOption.map (·.1)) else none).or
            (some (fileBucket (env.settings argv)))
        path := (if (lastArgument argv.options 'p').isSome then
          argv.positionalPath.or (lastArgument argv.options 'p') else none).or
            (some (filePath (env.settings argv)))
        keyId :=
          (((lastArgument argv.options 'k').or env.awsS3fsKey).or (env.settings argv).key).elim
            (some (ascii "accesskeyid")) fun key => some (configSetKey key).keyId
        secretKey :=
          (((lastArgument argv.options 'k').or env.awsS3fsKey).or (env.settings argv).key).elim
            (some (ascii "secretkey")) fun key => some (configSetKey key).secretKey
        logfile := ((lastArgument argv.options 'l').or (env.settings argv).logfile).or
          (some (ascii "/var/log/aws-s3fs.log"))
        verbose := if argv.options.contains .verbose then ⟨true, true⟩
          else ((env.settings argv).verbose.map fun value => ⟨value, true⟩).getD ⟨false, false⟩
        logLevel := (last loglevelOf argv.options).getD .warning
        daemonize := !argv.options.contains .foreground } := by
  rw [configFile_eq hcmdline] at hname
  obtain ⟨hvalid, given, hgiven, rfl⟩ := decodeCommandLine_eq_ok startCmdline_path hcmdline
  have hnot : ∀ option ∈ argv.options, option.invalid ≠ true := List.any_eq_false.1 hvalid
  obtain rfl := readConfiguration_eq_ok hname hfile
  obtain rfl := setFromKey_eq_ok hkey
  obtain rfl := decodeArguments_eq_ok hgiven
  have hregion : (last regionOf argv.options).isSome = (lastArgument argv.options 'r').isSome :=
    isSome_last_bind fun option hoption optarg hoptarg => by
      rw [Option.isSome_iff_ne_none]
      intro hnone
      cases option <;> cases hoptarg
      exact hnot _ hoption (by rw [invalid, hnone]; rfl)
  have hloglevel :
      (last loglevelOf argv.options).isSome = (lastArgument argv.options 'O').isSome :=
    isSome_last_bind fun option hoption optarg hoptarg => by
      rw [Option.isSome_iff_ne_none]
      intro hnone
      cases option <;> cases hoptarg
      exact hnot _ hoption (by rw [invalid, hnone]; rfl)
  simp only [overrideWith, Decoding.after, startDecoding, startCmdline, initializeConfiguration,
    setFromFile, Bool.false_or, Bool.true_and, ← hregion, ← hloglevel]
  congr 1
  case e_region => cases last regionOf argv.options <;> rfl
  case e_bucketName =>
    simp only [CommandLine.bucketOption, fileBucket]
    cases lastArgument argv.options 'b' <;> cases argv.positionalBucket <;>
      cases (env.settings argv).bucket <;> rfl
  case e_path =>
    simp only [filePath]
    cases lastArgument argv.options 'p' <;> cases argv.positionalPath <;>
      cases (env.settings argv).path <;> rfl
  case e_keyId =>
    cases lastArgument argv.options 'k' <;> cases env.awsS3fsKey <;>
      cases (env.settings argv).key <;> rfl
  case e_secretKey =>
    cases lastArgument argv.options 'k' <;> cases env.awsS3fsKey <;>
      cases (env.settings argv).key <;> rfl
  case e_logfile =>
    cases lastArgument argv.options 'l' <;> cases (env.settings argv).logfile <;> rfl
  case e_verbose => cases argv.options.contains .verbose <;> rfl
  case e_logLevel => cases last loglevelOf argv.options <;> rfl

/-- The bucket, which needs an option `-b`. -/
theorem bucketName_eq_iff (hcmdline : decodeCommandLine startCmdline argv = .ok cmdline)
    (hname : tryConfigFiles env cmdline.configFile = .ok configFilename)
    (hfile : readConfiguration env configFilename = .ok fromFile)
    (hkey : setFromKey env.awsS3fsKey fromFile = .ok fromKey) :
    (overrideWith cmdline fromKey).bucketName =
        (argv.positionalBucket.or (argv.bucketOption.map (·.1))).or
          (some (fileBucket (env.settings argv))) ↔
      argv.bucketOption.isSome = true ∨
        ∀ bucket, argv.positionalBucket = some bucket →
          bucket = fileBucket (env.settings argv) := by
  rw [overrideWith_eq hcmdline hname hfile hkey, ite_or_eq_iff, CommandLine.bucketOption,
    Option.isSome_map]
  cases lastArgument argv.options 'b' with
  | none => simp
  | some optarg => simp

/-- The path, which needs an option `-p`. -/
theorem path_eq_iff (hcmdline : decodeCommandLine startCmdline argv = .ok cmdline)
    (hname : tryConfigFiles env cmdline.configFile = .ok configFilename)
    (hfile : readConfiguration env configFilename = .ok fromFile)
    (hkey : setFromKey env.awsS3fsKey fromFile = .ok fromKey) :
    (overrideWith cmdline fromKey).path =
        ((argv.positionalPath.or (lastArgument argv.options 'p')).or argv.bucketOptionPath).or
          (some (filePath (env.settings argv))) ↔
      (lastArgument argv.options 'p').isSome = true ∨
        ∀ path, argv.positionalPath.or argv.bucketOptionPath = some path →
          path = filePath (env.settings argv) := by
  rw [overrideWith_eq hcmdline hname hfile hkey]
  cases lastArgument argv.options 'p' with
  | none =>
      have hnone := ite_or_eq_iff (p := False) (a := argv.positionalPath.or argv.bucketOptionPath)
        (b := filePath (env.settings argv))
      simpa using hnone
  | some optarg =>
      cases argv.positionalPath with
      | none => simp
      | some path => simp

/-- The message about the configuration file. -/
theorem announce_file_eq_ok_iff (configFilename : Bytes) :
    announce (ascii "Read configuration from %s.\n") [some configFilename] = .ok () ↔
      (messageOf [(ascii "Read configuration from ", configFilename)] (ascii ".\n")).length <
        1024 := by
  refine announce_eq_ok_iff rfl rfl ?_ (by decide +kernel) (by decide +kernel)
  have htext : 37 ∉ ascii "Read configuration from " := by decide +kernel
  simpa using htext

/-- The message about the configuration. -/
theorem announceConfiguration_eq_ok_iff {configuration : Configuration} :
    announceConfiguration configuration = .ok () ↔
      (messageOf
        [(ascii "Configuration:\n  Region: ", regionName configuration.region),
          (ascii "\n  Bucket: ", showStringValue configuration.bucketName),
          (ascii "\n  Path: ", showStringValue configuration.path),
          (ascii "\n  Log: ", showStringValue configuration.logfile),
          (ascii "\n  Log level: ", showLogLevel configuration.logLevel),
          (ascii "\nMount point:\n  ", showStringValue configuration.mountPoint)]
        (ascii "\n")).length < 1024 := by
  have htexts : ∀ text ∈ ["Configuration:\n  Region: ", "\n  Bucket: ", "\n  Path: ", "\n  Log: ",
      "\n  Log level: ", "\nMount point:\n  "], 37 ∉ ascii text := by decide +kernel
  refine announce_eq_ok_iff rfl rfl ?_ (by decide +kernel) (by decide +kernel)
  simpa using htexts

/-- The messages depend on the command line and the files only, if what is asked for is heeded. -/
theorem announceConfiguration_iff (hcmdline : decodeCommandLine startCmdline argv = .ok cmdline)
    (hname : tryConfigFiles env cmdline.configFile = .ok configFilename)
    (hfile : readConfiguration env configFilename = .ok fromFile)
    (hkey : setFromKey env.awsS3fsKey fromFile = .ok fromKey)
    (hheeded : Heeded (env.settings argv) argv) :
    announceConfiguration (overrideWith cmdline fromKey) = .ok () ↔
      (settingsMessage env argv).length < 1024 := by
  have hbucket := (bucketName_eq_iff hcmdline hname hfile hkey).2 hheeded.bucket
  have hpath := (path_eq_iff hcmdline hname hfile hkey).2 hheeded.path
  have hall := overrideWith_eq hcmdline hname hfile hkey
  have hor : ∀ (string : Option Bytes) (other : Bytes),
      showStringValue (string.or (some other)) = string.getD other := by
    rintro (_ | string) other <;> rfl
  rw [announceConfiguration_eq_ok_iff, hbucket, hpath, hall, settingsMessage, hor, hor, hor]
  rfl

/-- What `Configure` returns. -/
theorem configure_eq_ok_iff {configuration : Configuration}
    (hcmdline : decodeCommandLine startCmdline argv = .ok cmdline)
    (hname : tryConfigFiles env cmdline.configFile = .ok configFilename)
    (hfile : readConfiguration env configFilename = .ok fromFile)
    (hkey : setFromKey env.awsS3fsKey fromFile = .ok fromKey) :
    configure env argv = .ok configuration ↔
      announce (ascii "Read configuration from %s.\n") [configFilename] = .ok () ∧
        announceConfiguration (overrideWith cmdline fromKey) = .ok () ∧
          overrideWith cmdline fromKey = configuration := by
  have hkeys : announce (ascii "Keys set from AWS_S3FS_KEY variable.\n") [] = .ok () :=
    (announce_eq_ok_iff rfl List.map_nil.symm (by simp) (by decide +kernel) (by decide +kernel)).2
      (by decide +kernel)
  rw [configure, hcmdline, Runs.ok_bind, hname, Runs.ok_bind, hfile, Runs.ok_bind,
    Runs.bind_eq_ok_iff, hkey, hkeys]
  simp only [Runs.ok_bind, ite_self]
  constructor
  · rintro ⟨⟨⟩, hmessage, h⟩
    obtain ⟨⟨⟩, hconfiguration, h⟩ := Runs.bind_eq_ok_iff.1 h
    exact ⟨hmessage, hconfiguration, Except.ok.inj h⟩
  · rintro ⟨hmessage, hconfiguration, rfl⟩
    refine ⟨(), hmessage, ?_⟩
    rw [hconfiguration]
    rfl

end Steps

/-- The order of options of different kinds does not matter. -/
theorem configure_mixed {env : Environment} {argv : CommandLine} {options : List CmdOption}
    (h : Mixed optionCharacter argv.options options) :
    configure env { argv with options := options } = configure env argv := by
  rw [configure, configure, decodeCommandLine_mixed startCmdline_path h]

/-- What counts is heeded, and the messages fit. -/
theorem Configured.heeded {env : Environment} {argv : CommandLine} (h : Configured env argv)
    (haccepted : Accepted env argv) : Heeded (env.settings argv) argv ∧ Announced env argv := by
  obtain ⟨cmdline, configFilename, fromFile, fromKey, hcmdline, hname, hfile, hkey⟩ := haccepted
  obtain ⟨configuration, hconfiguration, hprecedence⟩ := h
  obtain ⟨hfileMessage, hmessage, rfl⟩ :=
    (configure_eq_ok_iff hcmdline hname hfile hkey).1 hconfiguration
  have hheeded : Heeded (env.settings argv) argv :=
    ⟨(bucketName_eq_iff hcmdline hname hfile hkey).1 hprecedence.bucket,
      (path_eq_iff hcmdline hname hfile hkey).1 hprecedence.path⟩
  refine ⟨hheeded, ?_, (announceConfiguration_iff hcmdline hname hfile hkey hheeded).1 hmessage⟩
  rw [configFile_eq hcmdline] at hname
  cases configFilename with
  | none =>
      have htext : 37 ∉ ascii "Read configuration from " := by decide +kernel
      exact absurd hfileMessage (announce_none rfl htext)
  | some configFilename =>
      exact ⟨configFilename, hname, (announce_file_eq_ok_iff configFilename).1 hfileMessage⟩

/-- What is heeded counts, if the messages fit. -/
theorem Heeded.configured {env : Environment} {argv : CommandLine}
    (h : Heeded (env.settings argv) argv) (haccepted : Accepted env argv)
    (hannounced : Announced env argv) : Configured env argv := by
  obtain ⟨cmdline, configFilename, fromFile, fromKey, hcmdline, hname, hfile, hkey⟩ := haccepted
  obtain ⟨⟨configFilename', hname', hlength⟩, hmessage⟩ := hannounced
  rw [← configFile_eq hcmdline, hname] at hname'
  obtain rfl := Except.ok.inj hname'
  have hconfiguration := (configure_eq_ok_iff hcmdline hname hfile hkey).2
    ⟨(announce_file_eq_ok_iff configFilename').2 hlength,
      (announceConfiguration_iff hcmdline hname hfile hkey h).2 hmessage, rfl⟩
  refine ⟨_, hconfiguration, ?_⟩
  constructor
  case bucket => exact (bucketName_eq_iff hcmdline hname hfile hkey).2 h.bucket
  case path => exact (path_eq_iff hcmdline hname hfile hkey).2 h.path
  case keyId => rw [overrideWith_eq hcmdline hname hfile hkey]
  case secretKey => rw [overrideWith_eq hcmdline hname hfile hkey]
  case order => exact fun options hmixed => (configure_mixed hmixed).trans hconfiguration

/-- An empty configuration file in the directory of the system, and no variables but `HOME`. -/
def plainEnvironment : Environment where
  home := some (ascii "/root")
  awsS3fsKey := none
  sysconfdir := ascii "/etc"
  files filename :=
    if filename = ascii "/etc/aws-s3fs.conf" then .settings ConfigFile.empty else .unreadable

/-- `aws-s3fs -b mybucket -p /photos otherbucket:/music dir`. -/
def overriddenMount : CommandLine where
  argc := 7
  options := [.bucket (ascii "mybucket"), .path (ascii "/photos")]
  arguments := [ascii "otherbucket:/music", ascii "dir"]

/-- `aws-s3fs -b mybucket:/photos dir`: the path is ignored. -/
def bucketMount : CommandLine where
  argc := 4
  options := [.bucket (ascii "mybucket:/photos")]
  arguments := [ascii "dir"]

/-- No configuration file and no variables. -/
def bareEnvironment : Environment where
  home := none
  awsS3fsKey := none
  sysconfdir := ascii "/etc"
  files _ := .unreadable

end AwsS3fs

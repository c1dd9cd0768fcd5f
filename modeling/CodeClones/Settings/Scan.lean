import CodeClones.Settings.Config

/-!
# Settings of a scan

What a scan is asked for wins over what is configured; only the globs of ignored paths add up.
-/

namespace CodeClones.Settings

/-- What a scan is asked for. -/
structure ScanRequest where
  /-- Least length of the base of a reported group. -/
  threshold : Option Nat := none
  /-- Which nodes are compared. -/
  scope : Option Scope := none
  /-- Whether names are checked. -/
  checkNames : Option Bool := none
  /-- More globs of paths to leave out. -/
  ignore : List String := []
  /-- The directory for the reports. -/
  outputDirectory : Option String := none
  /-- Which reports are written. -/
  format : Option OutputFormat := none
  /-- How many milliseconds comparing may take. -/
  timeBudget : Option Nat := none
  /-- Whether hidden files and directories are scanned. -/
  includeHidden : Option Bool := none
deriving DecidableEq, Repr

/-- What holds for one scan. -/
structure ScanSettings where
  /-- Globs of paths to leave out. -/
  ignore : List String
  /-- Which nodes are compared. -/
  scope : Scope
  /-- Least length of the base of a reported group. -/
  threshold : Nat
  /-- Whether names are checked. -/
  checkNames : Bool
  /-- How many milliseconds comparing may take, if there is a limit. -/
  timeBudget : Option Nat
  /-- Which reports are written. -/
  format : OutputFormat
  /-- The directory for the reports. -/
  outputDirectory : String
  /-- Whether hidden files and directories are scanned. -/
  includeHidden : Bool
deriving DecidableEq, Repr

/-- The settings of a scan under a configuration. -/
def ScanSettings.resolve (request : ScanRequest) (config : Config) : ScanSettings where
  ignore := config.ignorePatterns ++ request.ignore
  scope := request.scope.getD config.scan.scope
  threshold := request.threshold.getD config.scan.threshold
  checkNames := request.checkNames.getD config.scan.checkNames
  timeBudget := request.timeBudget.or config.scan.timeBudget
  format := request.format.getD config.scan.format
  outputDirectory := request.outputDirectory.getD config.outputDirectory
  includeHidden := request.includeHidden.getD config.scan.includeHidden

end CodeClones.Settings

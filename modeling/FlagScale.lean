import FlagScale.Python.Str
import FlagScale.Python.Dict
import FlagScale.Setup.Requirements
import FlagScale.Setup.Reading
import FlagScale.Setup.Termination
import FlagScale.Setup.Extras
import FlagScale.Setup.InstallCmd
import FlagScale.Setup.AutoInstall
import FlagScale.Posix.Path
import FlagScale.Posix.Disk
import FlagScale.Posix.Shell
import FlagScale.Posix.Test
import FlagScale.Runner.Scripts
import FlagScale.Runner.Pool
import FlagScale.Runner.ScriptLexing
import FlagScale.Cli.Config
import FlagScale.Cli.Commands

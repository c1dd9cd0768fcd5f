import CodeClones.Command.Invocation

/-!
# Completions

The scripts that let shells complete the names of commands and parameters.
-/

namespace CodeClones.Command

namespace Shell

/-- The name of a shell in messages. -/
def name : Shell → String
  | .powerShell => "powershell"
  | shell => shell.word

/-- The name of the file for the script of a shell. -/
def scriptName : Shell → String
  | .bash => "simstruct.bash"
  | .zsh => "_simstruct"
  | .fish => "simstruct.fish"
  | .powerShell => "_simstruct.ps1"
  | .elvish => "simstruct.elv"

end Shell

/-- The names behind two dashes that a command knows. -/
def optionWords {α : Type} (signature : Signature α) : List String :=
  (signature.named.map fun parameter => "--" ++ parameter.name) ++ ["--help"]

/-- The words that can be completed: the commands and all their parameters. -/
def completionWords : List String :=
  (commandNames ++ optionWords scanSignature ++ optionWords initSignature ++
    optionWords completionSignature).eraseDups

/-- The script of a shell, which offers all words. -/
def Shell.script (shell : Shell) : String :=
  let words := " ".intercalate completionWords
  match shell with
  | .bash => "complete -W \"" ++ words ++ "\" simstruct\n"
  | .zsh => "#compdef simstruct\ncompadd -- " ++ words ++ "\n"
  | .fish => "complete -c simstruct -a \"" ++ words ++ "\"\n"
  | .powerShell =>
    "Register-ArgumentCompleter -Native -CommandName simstruct -ScriptBlock \x7b\n" ++
      "    param($word)\n    \"" ++ words ++ "\".Split(' ') | Where-Object \x7b $_ -like \"$word*\" \x7d\n\x7d\n"
  | .elvish =>
    "set edit:completion:arg-completer[simstruct] = \x7b|@words| put " ++ words ++ " \x7d\n"

end CodeClones.Command

import Console.Toml.Library

namespace Console

namespace Settings

open Toml

def fallbackPrefixKey : Text := Text.of "fallback_prefix"

def showUsageOnErrorKey : Text := Text.of "show_usage_on_error"

def maxSuggestionsKey : Text := Text.of "max_suggestions"

def commandAliasesKey : Text := Text.of "command_aliases"

def defaults : List (Text × Item) :=
  [(fallbackPrefixKey, .string standard.fallbackPrefix),
   (showUsageOnErrorKey, .boolean standard.showUsageOnError),
   (maxSuggestionsKey, .integer (.ofInt standard.maxSuggestions)),
   (commandAliasesKey, .strings standard.commandAliases .nil)]

variable (library : Library)

def fillWith (document : library.Document) (items : List (Text × Item)) : library.Document :=
  items.foldl (fun document entry => library.orInsert document entry.1 entry.2) document

def patch? (s : Text) : Option Text :=
  (library.parse s).map fun document => library.print (fillWith library document defaults)

end Settings

end Console

/-! The name and the version under which the server presents itself. -/

namespace LanguageServer

/-- The name of the server. -/
def serverName : String := "mypl-lsp"

/-- The version of the server. -/
def serverVersion : String := "0.1.0"

end LanguageServer

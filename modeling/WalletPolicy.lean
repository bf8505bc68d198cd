import WalletPolicy.Syntax
import WalletPolicy.Lexer
import WalletPolicy.FlagRules
import WalletPolicy.Parser
import WalletPolicy.Accepted
import WalletPolicy.Tables
import WalletPolicy.Printer
import WalletPolicy.LexerRoundtrip
import WalletPolicy.Typing
import WalletPolicy.Nesting
import WalletPolicy.Completeness
import WalletPolicy.WellFormed
import WalletPolicy.Thresholds
import WalletPolicy.KeyInfo
import WalletPolicy.Decimal
import WalletPolicy.Header
import WalletPolicy.Witness
import WalletPolicy.NormalForm
import WalletPolicy.Arena
import WalletPolicy.Layout
import WalletPolicy.Representation
import WalletPolicy.ArenaBody
import WalletPolicy.WrapperChain
import WalletPolicy.ArenaRefinement
import WalletPolicy.BufferSize
import WalletPolicy.Fuel
import WalletPolicy.Separation

import RecordBridge.Config
import RecordBridge.Legacy.Layouts
import RecordBridge.Legacy.Schemas
/-!
# The legacy opcodes

The opcodes of the legacy login, world and zone traffic. Those from 0x1000 on
are never sent: they stand for records inside others. Each carries the layout
and the schema of one name.

| here | operation |
| --- | --- |
| `Legacy.opcodeName?` | `opcode_name` |
| `Legacy.config` | `config` |
| `Legacy.registry` | `registry` |
-/
namespace RecordBridge.Legacy

/-- An opcode, its name, and what it carries. -/
structure Opcode where
  opcode : UInt16
  name : String
  /-- The name of both the layout and the schema. -/
  carries : String
  repeatedField : Option String

/-- All opcodes, in order. -/
def opcodes : List Opcode := [
  ⟨0x0001, "OP_LoginWeb", "WebLogin", none⟩,
  ⟨0x0002, "OP_ServerListRequest", "WebLoginServerRequest", none⟩,
  ⟨0x0003, "OP_PlayEverquestRequest", "WebPlayEverquestRequest", none⟩,
  ⟨0x0004, "OP_WebInitiateConnection", "WebInitiateConnection", none⟩,
  ⟨0x0005, "OP_SendLoginInfo", "LoginInfo", none⟩,
  ⟨0x0010, "OP_LoginAccepted", "WebLoginReply", none⟩,
  ⟨0x0011, "OP_ServerListResponse", "WebLoginServerResponse", none⟩,
  ⟨0x0012, "OP_PlayEverquestResponse", "WebPlayEverquestResponse", none⟩,
  ⟨0x0020, "OP_SendCharInfo", "CharacterSelect", none⟩,
  ⟨0x0021, "OP_EnterWorld", "EnterWorld", none⟩,
  ⟨0x0022, "OP_ZoneServerInfo", "ZoneServerInfo", none⟩,
  ⟨0x0030, "OP_ClearObject", "Zero", none⟩,
  ⟨0x0031, "OP_FinishTrade", "Zero", none⟩,
  ⟨0x0032, "OP_LootComplete", "Zero", none⟩,
  ⟨0x0033, "OP_WorldObjectsSent", "Zero", none⟩,
  ⟨0x0034, "OP_TimeOfDay", "TimeOfDay", none⟩,
  ⟨0x0035, "OP_MoneyUpdate", "MoneyUpdate", none⟩,
  ⟨0x0036, "OP_GMEndTrainingResponse", "Zero", none⟩,
  ⟨0x0037, "OP_FinishWindow", "Zero", none⟩,
  ⟨0x0038, "OP_FinishWindow2", "Zero", none⟩,
  ⟨0x0039, "OP_ItemPacket", "ItemPacket", none⟩,
  ⟨0x003A, "OP_ColoredText", "ColoredText", none⟩,
  ⟨0x003B, "OP_FormattedMessage", "FormattedMessage", none⟩,
  ⟨0x003C, "OP_InterruptCast", "InterruptCast", none⟩,
  ⟨0x003D, "OP_ItemLinkResponse", "ItemPacket", none⟩,
  ⟨0x003E, "OP_ZoneSpawns", "Spawn", none⟩,
  ⟨0x003F, "OP_CompletedTasks", "TaskHistory", none⟩,
  ⟨0x0040, "OP_CharInventory", "ItemPacket", none⟩,
  ⟨0x0041, "OP_CustomTitles", "Titles", none⟩,
  ⟨0x0042, "OP_SpawnDoor", "Door", none⟩,
  ⟨0x0043, "OP_SendZonepoints", "ZonePoints", none⟩,
  ⟨0x0044, "OP_TributeInfo", "TributeAbility", none⟩,
  ⟨0x0045, "OP_GuildTributeInfo", "GuildTributeAbility", none⟩,
  ⟨0x0046, "OP_SendTitleList", "TitleList", none⟩,
  ⟨0x0047, "OP_AAExpUpdate", "AAExpUpdate", none⟩,
  ⟨0x0048, "OP_Action", "Action", none⟩,
  ⟨0x0049, "OP_AdventureData", "AdventureRequestResponse", none⟩,
  ⟨0x004A, "OP_AdventureFinish", "AdventureFinish", none⟩,
  ⟨0x004B, "OP_AdventurePointsUpdate", "AdventurePoints_Update", none⟩,
  ⟨0x004C, "OP_Animation", "Animation", none⟩,
  ⟨0x004D, "OP_BankerChange", "BankerChange", none⟩,
  ⟨0x004E, "OP_BecomeTrader", "BecomeTrader", none⟩,
  ⟨0x004F, "OP_BeginCast", "BeginCast", none⟩,
  ⟨0x0050, "OP_Charm", "Charm", none⟩,
  ⟨0x0051, "OP_ConsentResponse", "ConsentResponse", none⟩,
  ⟨0x0052, "OP_ExpUpdate", "ExpUpdate", none⟩,
  ⟨0x0053, "OP_GroundSpawn", "Object", none⟩,
  ⟨0x0054, "OP_GroupUpdate", "GroupJoin", none⟩,
  ⟨0x0055, "OP_GuildMOTD", "GuildMOTD", none⟩,
  ⟨0x0056, "OP_GuildManageAdd", "GuildJoin", none⟩,
  ⟨0x0057, "OP_GuildManageRemove", "GuildManageRemove", none⟩,
  ⟨0x0058, "OP_GuildManageStatus", "GuildManageStatus", none⟩,
  ⟨0x0059, "OP_GuildMemberUpdate", "GuildMemberUpdate", none⟩,
  ⟨0x005A, "OP_HPUpdate", "SpawnHPUpdate", none⟩,
  ⟨0x005B, "OP_IncreaseStats", "IncreaseStat", none⟩,
  ⟨0x005C, "OP_LFGAppearance", "LFG_Appearance", none⟩,
  ⟨0x005D, "OP_LeadershipExpUpdate", "LeadershipExpUpdate", none⟩,
  ⟨0x005E, "OP_LevelAppearance", "LevelAppearance", none⟩,
  ⟨0x005F, "OP_LevelUpdate", "LevelUpdate", none⟩,
  ⟨0x0060, "OP_MobHealth", "MobHealth", none⟩,
  ⟨0x0061, "OP_MobRename", "MobRename", none⟩,
  ⟨0x0062, "OP_MoneyOnCorpse", "moneyOnCorpseStruct", none⟩,
  ⟨0x0063, "OP_MoveDoor", "MoveDoor", none⟩,
  ⟨0x0064, "OP_NewSpawn", "NewSpawn", none⟩,
  ⟨0x0065, "OP_NewZone", "NewZone", none⟩,
  ⟨0x0066, "OP_PetitionCheckout", "Petition", none⟩,
  ⟨0x0067, "OP_PetitionUpdate", "PetitionUpdate", none⟩,
  ⟨0x0068, "OP_PlayerProfile", "PlayerProfile", none⟩,
  ⟨0x0069, "OP_RaidUpdate", "ZoneInSendName", none⟩,
  ⟨0x006A, "OP_RandomReply", "RandomReply", none⟩,
  ⟨0x006B, "OP_RecipeReply", "RecipeReply", none⟩,
  ⟨0x006C, "OP_RequestClientZoneChange", "RequestClientZoneChange", none⟩,
  ⟨0x006D, "OP_RespondAA", "AATable", none⟩,
  ⟨0x006E, "OP_RezzRequest", "Resurrect", none⟩,
  ⟨0x006F, "OP_SetTitleReply", "SetTitleReply", none⟩,
  ⟨0x0070, "OP_ShopDelItem", "Merchant_DelItem", none⟩,
  ⟨0x0071, "OP_SimpleMessage", "SimpleMessage", none⟩,
  ⟨0x0072, "OP_SkillUpdate", "SkillUpdate", none⟩,
  ⟨0x0073, "OP_SomeItemPacketMaybe", "Arrow", none⟩,
  ⟨0x0074, "OP_Stamina", "Stamina", none⟩,
  ⟨0x0075, "OP_Stun", "Stun", none⟩,
  ⟨0x0076, "OP_TargetReject", "TargetReject", none⟩,
  ⟨0x0077, "OP_Track", "Track", none⟩,
  ⟨0x0078, "OP_TradeCoins", "TradeCoin", none⟩,
  ⟨0x0079, "OP_TradeMoneyUpdate", "TradeMoneyUpdate", none⟩,
  ⟨0x007A, "OP_TraderDelItem", "TraderDelItem", none⟩,
  ⟨0x007B, "OP_TraderItemUpdate", "TraderItemUpdate", none⟩,
  ⟨0x007C, "OP_UpdateLeadershipAA", "UpdateLeadershipAA", none⟩,
  ⟨0x007D, "OP_Weather", "Weather", none⟩,
  ⟨0x007E, "OP_ZoneChange", "ZoneChange", none⟩,
  ⟨0x007F, "OP_AcceptNewTask", "AcceptNewTask", none⟩,
  ⟨0x0080, "OP_AdventureInfo", "AdventureInfo", none⟩,
  ⟨0x0081, "OP_ApplyPoison", "ApplyPoison", none⟩,
  ⟨0x0082, "OP_ApproveWorld", "ApproveWorld", none⟩,
  ⟨0x0083, "OP_Bandolier", "BandolierItem", none⟩,
  ⟨0x0084, "OP_BazaarSearch", "BazaarSearch", none⟩,
  ⟨0x0085, "OP_BecomeCorpse", "BecomeCorpse", none⟩,
  ⟨0x0086, "OP_CancelTask", "CancelTask", none⟩,
  ⟨0x0087, "OP_Command", "PetCommand", none⟩,
  ⟨0x0088, "OP_DynamicWall", "DynamicWall", none⟩,
  ⟨0x0089, "OP_GuildsList", "GuildsListEntry", none⟩,
  ⟨0x008A, "OP_LFGuild", "LFGuild_SearchPlayer", none⟩,
  ⟨0x008B, "OP_LoadSpellSet", "LoadSpellSet", none⟩,
  ⟨0x008C, "OP_Login", "LoginInfo", none⟩,
  ⟨0x008D, "OP_LogServer", "LogServer", none⟩,
  ⟨0x008E, "OP_MOTD", "GuildMOTD", none⟩,
  ⟨0x008F, "OP_OnLevelMessage", "OnLevelMessage", none⟩,
  ⟨0x0090, "OP_PlayMP3", "PlayMP3", none⟩,
  ⟨0x0091, "OP_PotionBelt", "PotionBeltItem", none⟩,
  ⟨0x0092, "OP_PVPStats", "PVPStatsEntry", none⟩,
  ⟨0x0093, "OP_Report", "BugReport", none⟩,
  ⟨0x0094, "OP_SpecialMesg", "SpecialMesg", none⟩,
  ⟨0x0095, "OP_TaskActivity", "TaskActivity", none⟩,
  ⟨0x0096, "OP_TaskDescription", "TaskDescription", none⟩,
  ⟨0x0097, "OP_ZoneUnavail", "ZoneUnavail", none⟩,
  ⟨0x1000, "Nested_WorldServer", "WebLoginWorldServer", some "servers"⟩,
  ⟨0x1001, "Nested_CharacterSelectEntry", "CharacterSelectEntry", some "characters"⟩,
  ⟨0x1002, "Nested_CharSelectEquip", "CharSelectEquip", some "equip"⟩,
  ⟨0x1003, "Nested_Tint", "Tint", none⟩,
  ⟨0x1004, "Nested_TextureProfile", "TextureProfile", none⟩,
  ⟨0x1005, "Nested_TintProfile", "TintProfile", none⟩,
  ⟨0x1006, "Nested_TributeLevel", "TributeLevel", none⟩,
  ⟨0x1007, "Nested_BindStruct", "BindStruct", none⟩,
  ⟨0x1008, "Nested_AA_Array", "AA_Array", none⟩,
  ⟨0x1009, "Nested_SpellBuff", "SpellBuff", none⟩,
  ⟨0x100A, "Nested_Disciplines", "Disciplines", none⟩,
  ⟨0x100B, "Nested_Bandolier", "Bandolier", none⟩,
  ⟨0x100C, "Nested_PotionBelt", "PotionBelt", none⟩,
  ⟨0x100D, "Nested_Tribute", "Tribute", none⟩,
  ⟨0x100E, "Nested_LeadershipAA", "LeadershipAA", none⟩,
  ⟨0x100F, "Nested_BazaarWindowStart", "BazaarWindowStart", none⟩
]

/-- The name of an opcode. -/
def opcodeName? (opcode : UInt16) : Option String :=
  (opcodes.find? (·.opcode == opcode)).map (·.name)

/-- The legacy tables. -/
def config : Config where
  layouts := layouts
  schemas := schemas
  descriptors := opcodes.map fun entry =>
    ⟨entry.opcode, entry.carries, entry.carries, entry.repeatedField⟩

/-- The registry of the legacy tables. -/
def registry : Except RegistryError Registry := config.build

end RecordBridge.Legacy
